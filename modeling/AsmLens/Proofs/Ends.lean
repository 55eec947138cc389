import AsmLens.Fault

/-!
# What a step comes to

Steps of the program are functions on a state, and some of them can fail. `Gives x s Q` says how the
step `x` ends from the state `s`, and `Ends x s Q F` says it of a step that can fail: as `Q` says
when it gives a result, and as `F` says when it fails. Both are read off the parts of a step:
`Gives.bind` and `Ends.bind` follow it from one part to the next.

A `Frame` is a relation between the states before and after that is kept by doing one thing after
another, and `Within R x` says that the step `x` stays in the frame `R` from every state.
-/

namespace AsmLens

variable {σ α β : Type}

/-! ### Steps that cannot fail -/

/-- From `s`, the step `x` gives a result and leaves a state as `Q` says. -/
def Gives (x : StateM σ α) (s : σ) (Q : α → σ → Prop) : Prop := Q (x s).1 (x s).2

namespace Gives

variable {x : StateM σ α} {s : σ} {Q Q' : α → σ → Prop}

theorem pure {a : α} (h : Q a s) : Gives (pure a) s Q := h

theorem mono (h : Gives x s Q) (hq : ∀ a s', Q a s' → Q' a s') : Gives x s Q' := hq _ _ h

theorem bind {f : α → StateM σ β} {P : β → σ → Prop} (h : Gives x s Q)
    (hf : ∀ a s', Q a s' → Gives (f a) s' P) : Gives (x >>= f) s P :=
  hf _ _ h

theorem and (h : Gives x s Q) (h' : Gives x s Q') : Gives x s fun a s' => Q a s' ∧ Q' a s' := ⟨h, h'⟩

theorem look {f : σ → StateM σ β} {P : β → σ → Prop} (h : Gives (f s) s P) : Gives (get >>= f) s P := h

theorem set (s' : σ) : Gives (set s') s fun _ t => t = s' := rfl

theorem modify (f : σ → σ) : Gives (modify f) s fun _ t => t = f s := rfl

end Gives

/-! ### Steps that can fail -/

/-- From `s`, the step `x` gives a result and leaves a state as `Q` says, or it fails with a fault and
leaves a state as `F` says. -/
def Ends (x : ExceptT Fault (StateM σ) α) (s : σ) (Q : α → σ → Prop) (F : Fault → σ → Prop) : Prop :=
  Gives x.run s fun
    | .ok a, s' => Q a s'
    | .error fault, s' => F fault s'

namespace Ends

variable {x : ExceptT Fault (StateM σ) α} {s : σ} {Q Q' : α → σ → Prop} {F F' : Fault → σ → Prop}

theorem pure {a : α} (h : Q a s) : Ends (pure a) s Q F := h

theorem throw {fault : Fault} (h : F fault s) : Ends (throw fault) s Q F := h

theorem mono (h : Ends x s Q F) (hq : ∀ a s', Q a s' → Q' a s') (hf : ∀ e s', F e s' → F' e s') :
    Ends x s Q' F' := by
  unfold Ends at h ⊢
  refine h.mono fun r s' hr => ?_
  cases r with
  | ok a => exact hq a s' hr
  | error e => exact hf e s' hr

theorem bind {f : α → ExceptT Fault (StateM σ) β} {P : β → σ → Prop} (h : Ends x s Q F')
    (hq : ∀ a s', Q a s' → Ends (f a) s' P F) (hf : ∀ e s', F' e s' → F e s') :
    Ends (x >>= f) s P F := by
  unfold Ends at h ⊢
  rw [ExceptT.run_bind]
  refine h.bind fun r s' hr => ?_
  cases r with
  | ok a => exact hq a s' hr
  | error e => exact hf e s' hr

theorem map {f : α → β} {P : β → σ → Prop} (h : Ends x s (fun a s' => P (f a) s') F) :
    Ends (f <$> x) s P F := by
  rw [map_eq_pure_bind]
  exact h.bind (fun a s' ha => .pure ha) fun e s' he => he

theorem discard (h : Ends x s Q F) : Ends (discard x) s (fun _ s' => ∃ a, Q a s') F :=
  Ends.map (P := fun _ s' => ∃ a, Q a s') (h.mono (fun a _ ha => ⟨a, ha⟩) fun _ _ he => he)

theorem and (h : Ends x s Q F) (h' : Ends x s Q' F') :
    Ends x s (fun a s' => Q a s' ∧ Q' a s') fun e s' => F e s' ∧ F' e s' := by
  unfold Ends Gives at h h' ⊢
  generalize x.run s = r at h h' ⊢
  obtain ⟨a | e, s'⟩ := r
  · exact ⟨h, h'⟩
  · exact ⟨h, h'⟩

theorem look {f : σ → ExceptT Fault (StateM σ) β} {P : β → σ → Prop} (h : Ends (f s) s P F) :
    Ends (get >>= f) s P F := h

theorem set (s' : σ) : Ends (set s') s (fun _ t => t = s') F := rfl

theorem modify (f : σ → σ) : Ends (modify f) s (fun _ t => t = f s) F := rfl

theorem anyhow : Ends x s (fun _ _ => True) fun _ _ => True := by
  unfold Ends Gives
  generalize x.run s = r
  obtain ⟨a | e, s'⟩ := r
  · exact trivial
  · exact trivial

theorem lift {y : StateM σ α} (h : Gives y s Q) : Ends (liftM y) s Q F := h

theorem ofExcept (r : Except Fault α) :
    Ends (liftM r) s (fun a t => t = s ∧ r = .ok a) fun e t => t = s ∧ r = .error e := by
  cases r with
  | ok a => exact ⟨rfl, rfl⟩
  | error e => exact ⟨rfl, rfl⟩

end Ends

/-! ### Frames -/

/-- A relation between the states before and after, kept by doing one thing after another. -/
class Frame (R : σ → σ → Prop) : Prop where
  refl : ∀ s, R s s
  trans : ∀ {s s' s''}, R s s' → R s' s'' → R s s''

/-- What holds before holds after. -/
def Preserves (P : σ → Prop) (s s' : σ) : Prop := P s → P s'

instance {P : σ → Prop} : Frame (Preserves P) where
  refl _ h := h
  trans h h' hs := h' (h hs)

/-- From every state, the step `x` leaves a state to which the frame `R` relates it. -/
def Within (R : σ → σ → Prop) (x : StateM σ α) : Prop := ∀ s, Gives x s fun _ s' => R s s'

namespace Within

variable {R : σ → σ → Prop} {x : StateM σ α}

theorem look {f : σ → StateM σ β} (hf : ∀ s, Within R (f s)) : Within R (get >>= f) :=
  fun s => hf s s

theorem mono {R' : σ → σ → Prop} (h : Within R x) (hr : ∀ s s', R s s' → R' s s') : Within R' x :=
  fun s => (h s).mono fun _ s' => hr s s'

variable [Frame R]

theorem pure (a : α) : Within R (pure a) := fun s => Frame.refl s

theorem bind {f : α → StateM σ β} (h : Within R x) (hf : ∀ a, Within R (f a)) :
    Within R (x >>= f) :=
  fun s => (h s).bind fun a s' hs => (hf a s').mono fun _ _ => Frame.trans hs

theorem forM {l : List α} {f : α → StateM σ PUnit} (h : ∀ a ∈ l, Within R (f a)) :
    Within R (l.forM f) := by
  induction l with
  | nil => exact .pure ()
  | cons a l ih =>
    exact (h a List.mem_cons_self).bind fun _ => ih fun a' ha' => h a' (List.mem_cons_of_mem a ha')

theorem mapM {l : List α} {f : α → StateM σ β} (h : ∀ a ∈ l, Within R (f a)) : Within R (l.mapM f) := by
  induction l with
  | nil => exact .pure []
  | cons a l ih =>
    rw [List.mapM_cons]
    refine (h a List.mem_cons_self).bind fun _ => ?_
    exact (ih fun a' ha' => h a' (List.mem_cons_of_mem a ha')).bind fun _ => .pure _

theorem filterMapM {l : List α} {f : α → StateM σ (Option β)} (h : ∀ a ∈ l, Within R (f a)) :
    Within R (l.filterMapM f) := by
  induction l with
  | nil => exact .pure []
  | cons a l ih =>
    rw [List.filterMapM_cons]
    refine (h a List.mem_cons_self).bind fun r => ?_
    have hrest := ih fun a' ha' => h a' (List.mem_cons_of_mem a ha')
    cases r with
    | none => exact hrest
    | some b => exact hrest.bind fun _ => .pure _

theorem foldlM {f : β → α → StateM σ β} (h : ∀ b a, Within R (f b a)) (l : List α) (b : β) :
    Within R (l.foldlM f b) := by
  induction l generalizing b with
  | nil => exact .pure b
  | cons a l ih =>
    rw [List.foldlM_cons]
    exact (h b a).bind ih

end Within

/-- From every state, the step `x` leaves a state to which the frame `R` relates it, whether or not it
fails. -/
def Holds (R : σ → σ → Prop) (x : ExceptT Fault (StateM σ) α) : Prop :=
  ∀ s, Ends x s (fun _ s' => R s s') fun _ s' => R s s'

namespace Holds

variable {R : σ → σ → Prop} {x : ExceptT Fault (StateM σ) α}

theorem look {f : σ → ExceptT Fault (StateM σ) β} (hf : ∀ s, Holds R (f s)) : Holds R (get >>= f) :=
  fun s => hf s s

theorem lift {y : StateM σ α} (h : Within R y) : Holds R (liftM y) := fun s => .lift (h s)

theorem mono {R' : σ → σ → Prop} (h : Holds R x) (hr : ∀ s s', R s s' → R' s s') : Holds R' x :=
  fun s => Ends.mono (h s) (fun _ s' => hr s s') fun _ s' => hr s s'

/-- The step, run so that its failure is a result. -/
theorem run (h : Holds R x) : Within R x.run := fun s => by
  have hs := h s
  unfold Ends at hs
  refine hs.mono fun r s' hr => ?_
  cases r <;> exact hr

theorem preserves {P : σ → Prop} (h : ∀ s, P s → Ends x s (fun _ s' => P s') fun _ s' => P s') :
    Holds (Preserves P) x := fun s => by
  by_cases hs : P s
  · exact (h s hs).mono (fun _ _ hs' _ => hs') fun _ _ hs' _ => hs'
  · exact Ends.anyhow.mono (fun _ _ _ h => absurd h hs) fun _ _ _ h => absurd h hs

theorem discard (h : Holds R x) : Holds R (discard x) := fun s =>
  (h s).discard.mono (fun _ _ ⟨_, hs⟩ => hs) fun _ _ hs => hs

variable [Frame R]

theorem pure (a : α) : Holds R (pure a) := fun s => .pure (Frame.refl s)

theorem throw (fault : Fault) : Holds R (throw fault : ExceptT Fault (StateM σ) α) := fun s =>
  .throw (Frame.refl s)

theorem ofExcept (r : Except Fault α) : Holds R (liftM r) := fun s =>
  (Ends.ofExcept r).mono (fun _ s' h => by rw [h.1]; exact Frame.refl s) fun _ s' h => by
    rw [h.1]; exact Frame.refl s

theorem bind {f : α → ExceptT Fault (StateM σ) β} (h : Holds R x) (hf : ∀ a, Holds R (f a)) :
    Holds R (x >>= f) := fun s =>
  (h s).bind (fun a s' hs => (hf a s').mono (fun _ _ => Frame.trans hs) fun _ _ => Frame.trans hs)
    fun _ _ hs => hs

end Holds

end AsmLens
