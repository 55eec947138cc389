import AsmLens.Proofs.Stages

/-!
# What does not depend on the window

As long as no call of the host is made to fail, what a compilation does next follows from its run, its
stage and the answer that has come: whether it fails, the stage at which it goes on, and the prompt that it
shows then. Only the numbers of its requests and prompts come from the window. `Steady x f` says this of a
step `x` after which `f` is seen, and `Compile.Stage.point` is what is seen of a stage, without its number.
-/

namespace AsmLens

open Window

/-- No call of the host was made to fail. -/
def Window.Calm (w : Window) : Prop := ∀ call, w.failures.get? call = none

namespace Window.Calm

variable {w w' : Window}

theorem asks (h : w.Calm) (hasks : Asks w w') : w'.Calm := fun call => hasks.unarmed call (h call)

theorem not_armed (h : w.Calm) {call : HostCall} : ¬ (w.failures.get? call).isSome := by
  rw [h call]
  exact nofun

end Window.Calm

/-- The step only asks, and in every calm window the same is seen after it, or it fails in each. -/
def Steady {α β : Type} (x : Host α) (f : α → Window → β) : Prop :=
  ∃ seen : Option β, ∀ w : Window, w.Calm →
    Ends x w (fun a w' => seen = some (f a w') ∧ Asks w w') fun _ w' => seen = none ∧ Asks w w'

namespace Steady

variable {α β γ δ : Type} {x : Host α} {f : α → Window → β}

theorem pure {a : α} (b : β) (h : ∀ w, f a w = b) : Steady (pure a) f :=
  ⟨some b, fun w _ => .pure ⟨by rw [h], Frame.refl w⟩⟩

theorem bind {k : α → Host γ} {g : γ → Window → δ} (hx : Steady x fun a _ => a)
    (hk : ∀ a, Steady (k a) g) : Steady (x >>= k) g := by
  obtain ⟨seen, hx⟩ := hx
  cases seen with
  | none =>
    refine ⟨none, fun w hw => (hx w hw).bind (fun a w' h => nomatch h.1) fun e w' h => ?_⟩
    exact ⟨rfl, h.2⟩
  | some a =>
    obtain ⟨seen, hk⟩ := hk a
    refine ⟨seen, fun w hw => (hx w hw).bind (fun a' w₁ h => ?_) fun e w' h => nomatch h.1⟩
    obtain ⟨ha, h₁⟩ := h
    cases ha
    exact (hk w₁ (hw.asks h₁)).mono (fun _ _ h => ⟨h.1, Frame.trans h₁ h.2⟩)
      fun _ _ h => ⟨h.1, Frame.trans h₁ h.2⟩

theorem map {k : α → γ} {g : γ → Window → δ} (hx : Steady x f) (c : β → δ)
    (h : ∀ a w, g (k a) w = c (f a w)) : Steady (do return k (← x)) g := by
  obtain ⟨seen, hx⟩ := hx
  refine ⟨seen.map c, fun w hw => (hx w hw).bind (fun a w' h' => .pure ⟨?_, h'.2⟩) fun e w' h' => ?_⟩
  · rw [h'.1, h]
    rfl
  · rw [h'.1]
    exact ⟨rfl, h'.2⟩

theorem ofExcept (r : Except Fault α) : Steady (liftM r) fun a _ => a := by
  refine ⟨r.toOption, fun w _ => (Ends.ofExcept r).mono ?_ ?_⟩
  · rintro a w' ⟨rfl, rfl⟩
    exact ⟨rfl, Frame.refl w'⟩
  · rintro e w' ⟨rfl, rfl⟩
    exact ⟨rfl, Frame.refl w'⟩

theorem lift {y : Action Unit} (h : ∀ w, Gives y w fun _ w' => Asks w w') :
    Steady (liftM y) fun a _ => a :=
  ⟨some (), fun w _ => .lift ((h w).mono fun _ _ hasks => ⟨rfl, hasks⟩)⟩

end Steady

/-! ### Asking -/

theorem logError_steady (text : String) (cause : Option Fault) :
    Steady (liftM (logError text cause)) fun a _ => a :=
  .lift fun w => (logError_quiet text cause w).toAsks

theorem Message.tellError_steady (text : String) : Steady (tellError text) fun a _ => a := by
  refine ⟨some (), fun w hw => (Message.tellError_ends text w).mono (fun _ _ h => ⟨rfl, h.1.toAsks⟩) ?_⟩
  exact fun e w' he => absurd he.2.2 hw.not_armed

theorem Query.send_steady (q : Query) : Steady (liftM q.send) fun _ _ => () :=
  ⟨some (), fun w _ => .lift ((q.send_gives w).mono fun _ _ h => ⟨rfl, h.1.toAsks⟩)⟩

theorem Prompt.create_calm (call : HostCall) (kind : PromptKind) {w : Window} (hw : w.Calm) :
    Ends (create call kind) w (fun _ _ => True) fun _ _ => False := by
  refine (attempt_ends call w).bind (fun _ w' _ => ?_) fun e w' he => hw.not_armed he.2.2
  exact trivial

theorem Prompt.askChoice_steady (question template : String) (items : List Json) :
    Steady (askChoice question template items) fun n w => w.prompts[n]? := by
  -- `askChoice_ends` leaves open whether the step fails. In a calm window only an unreadable label lets it.
  have hlabels : ∀ w : Window, w.Calm → Ends (askChoice question template items) w
      (fun _ _ => ∃ labels, items.mapM (Template.label template) = .ok labels)
      fun _ _ => ∃ e, items.mapM (Template.label template) = .error e := by
    intro w hw
    refine (create_calm _ _ hw).bind (fun n w₁ _ => ?_) fun _ _ he => he.elim
    refine (Ends.ofExcept _).bind (fun labels w₂ h₂ => ?_) fun e _ he => ⟨e, he.2⟩
    exact ⟨labels, h₂.2⟩
  refine ⟨(items.mapM (Template.label template)).toOption.map fun _ => some ⟨.choice items.length, .shown⟩,
    fun w hw => ((askChoice_ends question template items w).and (hlabels w hw)).mono ?_ ?_⟩
  · rintro n w' ⟨⟨hquiet, rfl, hprompts⟩, labels, hlabels⟩
    dsimp only
    rw [hlabels, hprompts, List.getElem?_concat_length]
    exact ⟨rfl, hquiet.toAsks⟩
  · rintro e w' ⟨⟨hquiet, -⟩, e', he'⟩
    rw [he']
    exact ⟨rfl, hquiet.toAsks⟩

theorem Prompt.askText_steady (question value : String) :
    Steady (askText question value) fun n w => w.prompts[n]? := by
  have hmade : ∀ w : Window, w.Calm →
      Ends (askText question value) w (fun _ _ => True) fun _ _ => False := fun w hw =>
    (create_calm _ _ hw).bind (fun _ _ _ => trivial) fun _ _ he => he
  refine ⟨some (some ⟨.text value, .shown⟩),
    fun w hw => ((askText_ends question value w).and (hmade w hw)).mono ?_ fun _ _ h => h.2.elim⟩
  rintro n w' ⟨⟨hquiet, rfl, hprompts⟩, -⟩
  dsimp only
  rw [hprompts, List.getElem?_concat_length]
  exact ⟨rfl, hquiet.toAsks⟩

namespace Query

variable {α : Type}

theorem fetched_steady (q : Query) (reply : Reply) : Steady (q.fetched reply) fun a _ => a := by
  unfold fetched
  cases reply with
  | ok body => exact .pure _ fun _ => rfl
  | error fault =>
    exact (logError_steady _ _).bind fun _ => (Steady.ofExcept _).bind fun text => .pure _ fun _ => rfl

theorem fetchedCatalog_steady (q : Query) (what : String) (read : Json → Except Fault (Option α))
    (reply : Reply) : Steady (q.fetchedCatalog what read reply) fun a _ => a := by
  refine (fetched_steady q reply).bind fun body => ?_
  cases body with
  | error e => exact .pure _ fun _ => rfl
  | ok body => exact .ofExcept _

theorem posted_steady (q : Query) (read : Option Json → Except Fault (Except String α)) (reply : Reply) :
    Steady (q.posted read reply) fun a _ => a := by
  unfold posted
  cases reply.bind read with
  | ok result => exact .pure _ fun _ => rfl
  | error fault =>
    exact (logError_steady _ _).bind fun _ => (Steady.ofExcept _).bind fun text => .pure _ fun _ => rfl

end Query

/-! ### The stages of a compilation -/

namespace Compile

/-- How far a run has come, but for the numbers of its requests and prompts. -/
structure Point where
  /-- The stage, with no number. -/
  stage : Stage
  prompt : Option Prompt

namespace Stage

def unnumbered : Stage → Stage
  | .fetchingLanguages _ => .fetchingLanguages 0
  | .choosingLanguage _ offered => .choosingLanguage 0 offered
  | .fetchingCompilers _ language => .fetchingCompilers 0 language
  | .choosingCompiler _ language offered => .choosingCompiler 0 language offered
  | .enteringArguments _ language compiler => .enteringArguments 0 language compiler
  | .compiling _ language compiler arguments => .compiling 0 language compiler arguments
  | stage => stage

def prompt? : Stage → Option Nat
  | .choosingLanguage n _ | .choosingCompiler n _ _ | .enteringArguments n _ _ => some n
  | _ => none

/-- What is seen of a stage in a window. -/
def point (stage : Stage) (w : Window) : Point := ⟨stage.unnumbered, stage.prompt?.bind (w.prompts[·]?)⟩

end Stage

theorem refuse_steady (why : String) : Steady (refuse why) Stage.point :=
  (Message.tellError_steady why).bind fun _ => .pure ⟨.finished, none⟩ fun _ => rfl

theorem offerLanguages_steady (run : Run) (languages : List Language) :
    Steady (offerLanguages run languages) Stage.point := by
  unfold offerLanguages
  dsimp only
  split
  · exact refuse_steady _
  · let choosing : Stage := .choosingLanguage 0 (languagesFor run languages)
    exact (Prompt.askChoice_steady _ _ _).map (⟨choosing, ·⟩) fun _ _ => rfl

theorem offerCompilers_steady (run : Run) (language : Language) (compilers : List Compiler) :
    Steady (offerCompilers run language compilers) Stage.point := by
  unfold offerCompilers
  split
  · exact refuse_steady _
  · exact (Prompt.askChoice_steady _ _ _).map (⟨.choosingCompiler 0 language compilers, ·⟩) fun _ _ => rfl

theorem onReply_steady (run : Run) {stage : Stage} (hstage : stage.prompt? = none) (reply : Reply) :
    Steady (onReply run stage reply) Stage.point := by
  cases stage with
  | fetchingLanguages n =>
    refine (Query.fetchedCatalog_steady _ _ _ reply).bind fun r => ?_
    cases r with
    | error e => exact refuse_steady e
    | ok languages => exact offerLanguages_steady run languages
  | fetchingCompilers n language =>
    refine (Query.fetchedCatalog_steady _ _ _ reply).bind fun r => ?_
    cases r with
    | error e => exact refuse_steady e
    | ok compilers => exact offerCompilers_steady run language compilers
  | compiling n language compiler arguments =>
    refine (Query.posted_steady _ _ reply).bind fun r => ?_
    cases r with
    | error e => exact refuse_steady _
    | ok output => exact .pure ⟨.compiled compiler output, none⟩ fun _ => rfl
  | finished => exact .pure ⟨.finished, none⟩ fun _ => rfl
  | compiled compiler output => exact .pure ⟨.compiled compiler output, none⟩ fun _ => rfl
  | _ => nomatch hstage

theorem onAnswer_steady (run : Run) (stage : Stage) (answer : Answer) :
    Steady (onAnswer run stage answer) Stage.point := by
  have hover : Steady (pure .finished) Stage.point := .pure ⟨.finished, none⟩ fun _ => rfl
  unfold onAnswer
  split
  · split
    · exact hover
    · rename_i language _
      exact (Query.send_steady _).map (fun _ => ⟨.fetchingCompilers 0 language, none⟩) fun _ _ => rfl
  · rename_i language _ _
    split
    · exact hover
    · rename_i compiler _
      exact (Prompt.askText_steady _ _).map (⟨.enteringArguments 0 language compiler, ·⟩) fun _ _ => rfl
  · rename_i language compiler arguments
    refine Steady.bind (.lift fun w => (log_quiet _ w).toAsks) fun _ => ?_
    exact (Query.send_steady _).map (fun _ => ⟨.compiling 0 language compiler arguments, none⟩) fun _ _ => rfl
  · exact hover

theorem onReply_unnumbered (run : Run) {stage : Stage} (hstage : stage.prompt? = none) (reply : Reply) :
    onReply run stage.unnumbered reply = onReply run stage reply := by
  cases stage <;> first | rfl | nomatch hstage

theorem onAnswer_unnumbered (run : Run) (stage : Stage) (answer : Answer) :
    onAnswer run stage.unnumbered answer = onAnswer run stage answer := by
  cases stage <;> cases answer <;> rfl

end Compile

end AsmLens
