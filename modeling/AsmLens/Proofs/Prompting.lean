import AsmLens.Proofs.Framing
import AsmLens.Proofs.Reachable
import AsmLens.Proofs.Textless

/-!
# Prompts that tasks wait for

A part of a task poses at most one prompt, and goes on to wait for its answer (`Window.Poses`): what is offered
for a choice always has a label, so a prompt that was made is shown. Whatever else the program does leaves the
prompts alone (`Window.Unprompted`), but for the prompt that the user answers.
-/

namespace AsmLens

open Window

/-- An event shows the prompt with a number, which is of a kind. -/
inductive Event.Shows (n : Nat) : PromptKind → Event → Prop where
  | choice (question : String) (labels : List String) :
    Shows n (.choice labels.length) (.choicePrompt n question labels true)
  | text (question value : String) : Shows n (.text value) (.textPrompt n question value true)

theorem Event.Shows.prompt? {n : Nat} {kind : PromptKind} {e : Event} (h : e.Shows n kind) :
    e.prompt? = some n := by
  cases h <;> rfl

def Job.prompt? (job : Job) : Option Nat :=
  match job.wait? with
  | some (.prompt n) => some n
  | _ => none

theorem Job.prompt?_tooltip (stage : Tooltip.Stage) : (tooltip stage).prompt? = none := by
  cases stage <;> rfl

theorem Job.prompt?_eq_some_iff {job : Job} {n : Nat} : job.prompt? = some n ↔ job.wait? = some (.prompt n) := by
  unfold prompt?
  split
  · rename_i m hwait
    rw [hwait, Option.some.injEq, Option.some.injEq, Wait.prompt.injEq]
  · rename_i hwait
    exact ⟨nofun, fun h => absurd h (hwait n)⟩

namespace Window

variable {w w₁ w' : Window} {n? : Option Nat}

def prompted (w : Window) : List Event := w.events.filter Event.isPrompt

/-- Nothing became of the prompts. -/
def Unprompted (w w' : Window) : Prop := Untouched Event.isPrompt w w'

instance : Displaying Unprompted :=
  displaying_untouched (p := Event.isPrompt) (fun e he => by cases e <;> first | rfl | nomatch he)
    fun e he => by cases e <;> first | rfl | nomatch he

instance : Telling Unprompted where
  tell {e} he := emit_untouched (by cases e <;> first | rfl | nomatch he)

instance : Replacing Unprompted where
  replace _ _ _ _ := emit_untouched rfl

instance : Sending Unprompted where
  send _ _ := emit_untouched rfl

/-- One more prompt is shown, and has the given number; without a number nothing became of the prompts. -/
def Poses : Option Nat → Window → Window → Prop
  | none, w, w' => Unprompted w w'
  | some n, w, w' => ∃ kind e, n = w.prompts.length ∧ e.Shows n kind ∧
    w'.prompts = w.prompts ++ [⟨kind, .shown⟩] ∧ w'.prompted = w.prompted ++ [e]

theorem Poses.after (hunprompted : Unprompted w w₁) (h : Poses n? w₁ w') : Poses n? w w' := by
  cases n? with
  | none => exact Frame.trans (R := Unprompted) hunprompted h
  | some n =>
    obtain ⟨kind, e, hn, he, hprompts, hprompted⟩ := h
    have hkeeps : w₁.prompted = w.prompted := hunprompted.keeps
    exact ⟨kind, e, hunprompted.prompts ▸ hn, he, hunprompted.prompts ▸ hprompts, hkeeps ▸ hprompted⟩

end Window

/-! ### Posing a prompt -/

/-- The step poses the prompt that its result waits for, if it waits for one, and no prompt if it fails. -/
def Posing {α : Type} (prompt? : α → Option Nat) (x : Host α) : Prop :=
  ∀ w, Ends x w (fun a w' => Poses (prompt? a) w w') fun _ w' => Unprompted w w'

namespace Posing

variable {α β : Type} {prompt? : α → Option Nat}

theorem pure {a : α} (h : prompt? a = none) : Posing prompt? (pure a) := fun w => .pure <| by
  rw [h]
  exact Frame.refl (R := Unprompted) w

theorem bind {x : Host β} {f : β → Host α} (h : Holds Unprompted x) (hf : ∀ b, Posing prompt? (f b)) :
    Posing prompt? (x >>= f) := fun w =>
  (h w).bind (fun b w' hw => (hf b w').mono (fun _ _ => Poses.after hw) fun _ _ => Frame.trans hw)
    fun _ _ hw => hw

theorem look {f : Window → Host α} (hf : ∀ w, Posing prompt? (f w)) : Posing prompt? (get >>= f) :=
  fun w => hf w w

theorem of_holds {x : Host α} (h : Holds Unprompted x) (hnone : ∀ a, prompt? a = none) : Posing prompt? x :=
  fun w => (h w).mono (fun a _ hw => by rw [hnone]; exact hw) fun _ _ hw => hw

/-- What goes on from the number of a prompt waits for it. -/
theorem wait {x : Host Nat} {f : Nat → α} (h : Posing some x) (hf : ∀ n, prompt? (f n) = some n) :
    Posing prompt? (do return f (← x)) := fun w =>
  (h w).bind (fun n w' hw => .pure (by rw [hf]; exact hw)) fun _ _ hw => hw

end Posing

namespace Prompt

theorem create_made (call : HostCall) (kind : PromptKind) (w : Window) :
    Ends (create call kind) w
      (fun n w' => n = w.prompts.length ∧ w'.prompts = w.prompts ++ [⟨kind, .made⟩] ∧ w'.events = w.events)
      fun _ w' => Unprompted w w' := by
  refine (attempt_exactly call w).bind (fun _ w₁ h₁ => ?_) fun _ w' h => ?_
  · obtain ⟨rfl, -⟩ := h₁
    exact ⟨rfl, rfl, rfl⟩
  · rw [h.1]
    exact ⟨rfl, rfl⟩

theorem display_shows {kind : PromptKind} {e : Event} {w w' : Window} (he : e.Shows w.prompts.length kind)
    (hprompts : w'.prompts = w.prompts ++ [⟨kind, .made⟩]) (hevents : w'.events = w.events) :
    Gives (display w.prompts.length e) w' fun _ w'' => Poses (some w.prompts.length) w w'' := by
  refine ⟨kind, e, rfl, he, ?_, ?_⟩
  · show w'.prompts.modify w.prompts.length _ = _
    rw [hprompts, modify_newest]
  · show (w'.events ++ [e]).filter Event.isPrompt = _
    rw [hevents, List.filter_append, List.filter_cons_of_pos (by rw [Event.isPrompt, he.prompt?]; rfl)]
    rfl

theorem askChoice_posing (question template : String) {items : List Json}
    (hitems : ∀ item ∈ items, ¬ Fails (Template.label template item)) :
    Posing some (askChoice question template items) := fun w => by
  refine (create_made _ _ w).bind (fun n w₁ h₁ => ?_) fun _ _ he => he
  obtain ⟨rfl, hprompts, hevents⟩ := h₁
  refine (Ends.ofExcept _).bind (fun labels w₂ h₂ => ?_) fun fault w₂ h₂ => ?_
  · obtain ⟨rfl, hlabels⟩ := h₂
    refine (Ends.lift (display_shows ?_ hprompts hevents)).bind (fun _ _ h => .pure h) fun _ _ he => he
    rw [← Fails.length_of_mapM hlabels]
    exact .choice question labels
  · obtain ⟨item, hitem, hfails⟩ := Fails.mapM_iff.1 ⟨fault, h₂.2⟩
    exact absurd hfails (hitems item hitem)

theorem askText_posing (question value : String) : Posing some (askText question value) := fun w => by
  refine (create_made _ _ w).bind (fun n w₁ h₁ => ?_) fun _ _ he => he
  obtain ⟨rfl, hprompts, hevents⟩ := h₁
  exact (Ends.lift (display_shows (.text question value) hprompts hevents)).bind (fun _ _ h => .pure h)
    fun _ _ he => he

end Prompt

/-! ### Stages -/

namespace Compile

theorem start_posing (document : Document) (selection : Selection) (range : Option LineRange) :
    Posing (fun r => (Job.compile r.1 r.2).prompt?) (start document selection range) :=
  .look fun _ => .bind (.ofExcept _) fun _ => .bind (.lift (Query.send_framed _)) fun _ => .pure rfl

theorem refuse_posing (run : Run) (why : String) :
    Posing (Job.prompt? ∘ .compile run) (refuse why) :=
  .bind (Message.tellError_framed why) fun _ => .pure rfl

theorem offerLanguages_posing (run : Run) (languages : List Language) :
    Posing (Job.prompt? ∘ .compile run) (offerLanguages run languages) := by
  unfold offerLanguages
  dsimp only
  split
  · exact refuse_posing run _
  · refine .wait (Prompt.askChoice_posing _ _ fun item hitem => ?_) fun _ => rfl
    obtain ⟨language, -, rfl⟩ := List.mem_map.1 hitem
    exact language.not_fails_label _

theorem offerCompilers_posing (run : Run) (language : Language) (compilers : List Compiler) :
    Posing (Job.prompt? ∘ .compile run) (offerCompilers run language compilers) := by
  unfold offerCompilers
  split
  · exact refuse_posing run _
  · refine .wait (Prompt.askChoice_posing _ _ fun item hitem => ?_) fun _ => rfl
    obtain ⟨compiler, -, rfl⟩ := List.mem_map.1 hitem
    exact compiler.not_fails_label _

theorem onReply_posing (run : Run) {stage : Stage} (hstage : (Job.compile run stage).prompt? = none)
    (reply : Reply) : Posing (Job.prompt? ∘ .compile run) (onReply run stage reply) := by
  unfold onReply
  cases stage with
  | fetchingLanguages n =>
    refine .bind (Query.fetchedCatalog_framed _ _ _ reply) fun r => ?_
    cases r with
    | error e => exact refuse_posing run e
    | ok languages => exact offerLanguages_posing run languages
  | fetchingCompilers n language =>
    refine .bind (Query.fetchedCatalog_framed _ _ _ reply) fun r => ?_
    cases r with
    | error e => exact refuse_posing run e
    | ok compilers => exact offerCompilers_posing run language compilers
  | compiling n language compiler arguments =>
    refine .bind (Query.posted_framed _ _ reply) fun r => ?_
    cases r with
    | error e => exact refuse_posing run _
    | ok output => exact .pure rfl
  | _ => exact .pure hstage

theorem onAnswer_posing (run : Run) (stage : Stage) (answer : Answer) :
    Posing (Job.prompt? ∘ .compile run) (onAnswer run stage answer) := by
  unfold onAnswer
  split
  · split
    · exact .pure rfl
    · exact .bind (.lift (Query.send_framed _)) fun _ => .pure rfl
  · split
    · exact .pure rfl
    · exact .wait (Prompt.askText_posing _ _) fun _ => rfl
  · exact .bind (.lift (log_framed _)) fun _ => .bind (.lift (Query.send_framed _)) fun _ => .pure rfl
  · exact .pure rfl

end Compile

namespace Format

theorem start_posing (n : Nat) (document : Document) :
    Posing (fun r => (Job.format r.1 r.2).prompt?) (start n document) :=
  .look fun _ => .bind (.lift (Query.send_framed _)) fun _ => .pure rfl

theorem refuse_posing (run : Run) (why : String) :
    Posing (Job.prompt? ∘ .format run) (refuse why) :=
  .bind (Message.tellError_framed why) fun _ => .pure rfl

theorem onReply_posing (run : Run) {stage : Stage} (hstage : (Job.format run stage).prompt? = none)
    (reply : Reply) : Posing (Job.prompt? ∘ .format run) (onReply run stage reply) := by
  unfold onReply
  cases stage with
  | fetchingFormatters n =>
    refine .bind (Query.fetchedCatalog_framed _ _ _ reply) fun r => ?_
    match r with
    | .error e => exact refuse_posing run e
    | .ok [] => exact refuse_posing run _
    | .ok (formatter :: rest) =>
      refine .wait (Prompt.askChoice_posing _ _ fun item hitem => ?_) fun _ => rfl
      obtain ⟨formatter', -, rfl⟩ := List.mem_map.1 hitem
      exact formatter'.not_fails_label _
  | formatting n formatter style =>
    refine .bind (Query.posted_framed _ _ reply) fun r => ?_
    cases r with
    | error e => exact refuse_posing run _
    | ok output =>
      dsimp only
      split
      · refine .bind (Document.replaceAll_framed _ _) fun applied => ?_
        split
        · exact .bind (Message.tellDone_framed _) fun _ => .pure rfl
        · exact refuse_posing run _
      · exact refuse_posing run _
  | _ => exact .pure hstage

theorem onAnswer_posing (run : Run) (stage : Stage) (answer : Answer) :
    Posing (Job.prompt? ∘ .format run) (onAnswer run stage answer) := by
  have hsend : ∀ formatter style, Posing (Job.prompt? ∘ .format run)
      (sendText run formatter style) := fun formatter style =>
    .bind (.lift (log_framed _)) fun _ => .bind (.lift (Query.send_framed _)) fun _ => .pure rfl
  unfold onAnswer
  split
  · split
    · exact .pure rfl
    · rename_i formatter _
      split
      · exact hsend formatter defaultStyle
      · refine .wait (Prompt.askChoice_posing _ _ fun item hitem => ?_) fun _ => rfl
        obtain ⟨style, -, rfl⟩ := List.mem_map.1 hitem
        exact Template.not_fails_label_str style _
  · split
    · exact .pure rfl
    · exact hsend _ _
  · exact .pure rfl

end Format

/-! ### Tasks -/

namespace Workbench

variable {b : Workbench} {job : Job}

/-- A task that goes on poses the prompt that it waits for then, if it waits for one. -/
def GoesPosing (x : Work Job) : Prop :=
  ∀ b, Ends x b (fun job b' => Poses job.prompt? b.window b'.window) fun _ b' => InWindow Unprompted b b'

theorem goesPosing_of_host {σ : Type} {x : Host σ} {f : σ → Job} (h : Posing (Job.prompt? ∘ f) x) :
    GoesPosing (do return f (← x)) := fun b =>
  (onHost_ends (h b.window)).bind (fun _ _ hb => .pure hb.1) fun _ _ hb => hb.1

theorem continueCompile_posing {run : Compile.Run} {x : Host Compile.Stage}
    (h : Posing (Job.prompt? ∘ .compile run) x) : GoesPosing (do continueCompile run (← x)) := fun b => by
  refine (onHost_ends (h b.window)).bind (fun stage b₁ hb => ?_) fun _ _ hb => hb.1
  cases stage with
  | compiled compiler output =>
    -- An output is published at once, and then the task waits for nothing.
    refine (publish_framed (R := Unprompted) run compiler output b₁).bind
      (fun _ b' h' => .pure ?_) fun _ b' h' => ?_
    · exact Frame.trans (R := Unprompted) hb.1 h'
    · exact Frame.trans (R := Unprompted) hb.1 h'
  | _ => exact .pure hb.1

theorem onReply_posing (reply : Reply) (hjob : job.prompt? = none) : GoesPosing (onReply reply job) := by
  cases job with
  | compile run stage => exact continueCompile_posing (Compile.onReply_posing run hjob reply)
  | format run stage => exact goesPosing_of_host (Format.onReply_posing run hjob reply)
  | tooltip stage =>
    cases stage with
    | fetching n set opcode =>
      exact goesPosing_of_host (.of_holds (Tooltip.onReply_framed set opcode reply) Job.prompt?_tooltip)
    | _ => exact fun b => .pure (Frame.refl (R := Unprompted) b.window)

theorem onAnswer_posing (answer : Answer) {n : Nat} (hjob : job.prompt? = some n) :
    GoesPosing (onAnswer answer job) := by
  cases job with
  | compile run stage => exact continueCompile_posing (Compile.onAnswer_posing run stage answer)
  | format run stage => exact goesPosing_of_host (Format.onAnswer_posing run stage answer)
  | tooltip stage => cases stage <;> nomatch hjob

theorem onChoice_posing (chosen : Option String) (hjob : job.prompt? = none) :
    GoesPosing (onChoice chosen job) := by
  have hpure : GoesPosing (pure job) := fun b => .pure <| by
    rw [hjob]
    exact Frame.refl (R := Unprompted) b.window
  cases job with
  | tooltip stage =>
    cases stage with
    | linking n link =>
      exact goesPosing_of_host (.of_holds (Tooltip.onChoice_framed link chosen) Job.prompt?_tooltip)
    | _ => exact hpure
  | _ => exact hpure

theorem go_posing {n : Notice} {what : Wait} (hn : n.wakes? = some what) (hwait : job.wait? = some what) :
    GoesPosing (n.go job) := by
  have hnone : ∀ {what}, job.wait? = some what → (∀ k, what ≠ .prompt k) → job.prompt? = none := by
    intro what hwait hwhat
    refine Option.eq_none_iff_forall_ne_some.2 fun k hk => hwhat k ?_
    rw [Job.prompt?_eq_some_iff, hwait] at hk
    exact Option.some.inj hk
  cases n with
  | replied k reply =>
    cases hn
    exact onReply_posing reply (hnone hwait nofun)
  | answered k answer =>
    cases hn
    exact onAnswer_posing answer (Job.prompt?_eq_some_iff.2 hwait)
  | actionChosen k chosen =>
    cases hn
    exact onChoice_posing chosen (hnone hwait nofun)
  | _ => nomatch hn

theorem contain_posing (name : String) {x : Work Job} (h : GoesPosing x) (b : Workbench) :
    Gives (contain name x) b fun j b' => Poses (j.bind Job.prompt?) b.window b'.window := by
  refine contain_gives (h b) (fun job b' hposes _ => hposes) (fun job b' hposes hover => ?_) fun fault b' hb => ?_
  · rwa [Job.prompt?, hover] at hposes
  · refine (onWindow_gives (reportFault_framed (R := Unprompted) name fault b'.window)).mono fun _ b'' h => ?_
    exact Frame.trans (R := Unprompted) hb h.1

theorem spawn_posing {σ : Type} {x : Host σ} {f : σ → Job} (name : String) (h : Posing (Job.prompt? ∘ f) x)
    (b : Workbench) : Gives (spawn name do return f (← x)) b fun _ b' =>
      ∃ j : Option Job, b'.jobs = b.jobs ++ j.toList ∧ Poses (j.bind Job.prompt?) b.window b'.window := by
  have hrests : Ends (show Work Job from do return f (← x)) b (fun _ b' => b.Rests b') fun _ b' => b.Rests b' :=
    (onHost_ends (Ends.anyhow (x := x) (s := b.window))).bind (fun _ _ hb => .pure hb.2) fun _ _ hb => hb.2
  exact spawn_gives hrests (contain_posing name (goesPosing_of_host h) b)

end Workbench

end AsmLens
