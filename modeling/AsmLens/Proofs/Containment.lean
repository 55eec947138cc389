import AsmLens.Proofs.Framing
import AsmLens.Proofs.Provenance

/-!
# Failures that nobody handles

A failure is handled when a task contains it, or when what failed is waited for. Whatever the program does
leaves no failure to nobody (`Window.Contained`), but for one thing: a command that needs a document and has
none tells the user so without waiting for it. If this fails, the failure is nobody's. `Act.abandoned?` is the
failure that is left so, and there is no other one.
-/

namespace AsmLens

open Window

/-- Whether an event is a failure that nobody handles. -/
def Event.isEscape : Event → Bool
  | .thrown _ | .unhandled _ => true
  | _ => false

namespace Window

def escaped (w : Window) : List Event := w.events.filter Event.isEscape

def Contained (w w' : Window) : Prop := Keeps Event.isEscape w w'

theorem not_isEscape_of_isPrompt {e : Event} (h : e.isPrompt = true) : e.isEscape = false := by
  cases e <;> first | rfl | nomatch h

instance : Displaying Contained :=
  displaying_keeps (p := Event.isEscape) (fun e he => by cases e <;> first | rfl | nomatch he)
    fun e he => by cases e <;> first | rfl | nomatch he

instance : Asking Contained where
  tell {e} he := emit_keeps (by cases e <;> first | rfl | nomatch he)
  askChoice := askChoice_keeps fun _ => not_isEscape_of_isPrompt
  askText := askText_keeps fun _ => not_isEscape_of_isPrompt

instance : Replacing Contained where
  replace _ _ _ _ := emit_keeps rfl

instance : Sending Contained where
  send _ _ := emit_keeps rfl

end Window

/-! ### Telling without waiting -/

namespace Window

/-- The failure of a call, should it fail when it is made next. -/
def failureOf? (w : Window) (call : HostCall) : Option Fault := (w.failures.get? call).map .ofMessage

end Window

theorem attempt_fails (call : HostCall) (w : Window) :
    Ends (attempt call) w (fun _ w' => w' = w ∧ w.failureOf? call = none)
      fun fault w' => Contained w w' ∧ w.failureOf? call = some fault := by
  refine .look ?_
  unfold failureOf?
  cases w.failures.get? call with
  | none => exact .pure ⟨rfl, rfl⟩
  | some message =>
    refine (Ends.set _).bind (fun _ w' hw => .throw ?_) fun _ _ he => he
    rw [hw]
    exact ⟨rfl, rfl⟩

theorem Message.tellError_fails (text : String) (w : Window) :
    Ends (tellError text) w (fun _ w' => Contained w w' ∧ w.failureOf? .showError = none)
      fun fault w' => Contained w w' ∧ w.failureOf? .showError = some fault := by
  have hlog : Gives (logError text none) w fun _ w₁ =>
      Contained w w₁ ∧ w₁.failureOf? .showError = w.failureOf? .showError :=
    ⟨logError_framed (R := Contained) text none w, rfl⟩
  refine (Ends.lift hlog).bind (fun _ w₁ h₁ => ?_) fun _ _ he => he
  have hshow : Ends (showMessage .error text []) w₁
      (fun _ w' => Contained w₁ w' ∧ w₁.failureOf? .showError = none)
      fun fault w' => Contained w₁ w' ∧ w₁.failureOf? .showError = some fault := by
    refine (attempt_fails .showError w₁).bind (fun _ w₂ h₂ => ?_) fun _ _ he => he
    obtain ⟨rfl, hnone⟩ := h₂
    exact ⟨filter_concat_of_false rfl w₂.events, hnone⟩
  rw [← h₁.2]
  refine hshow.discard.mono ?_ fun _ _ he => ⟨Frame.trans h₁.1 he.1, he.2⟩
  rintro _ w' ⟨_, hcontained, hnone⟩
  exact ⟨Frame.trans h₁.1 hcontained, hnone⟩

namespace Workbench

theorem tellUnawaited_escapes (text : String) (w : Window) :
    Gives (tellUnawaited text) w fun _ w' =>
      w'.escaped = w.escaped ++ ((w.failureOf? .showError).map Event.unhandled).toList := by
  have h := Message.tellError_fails text w
  unfold Ends at h
  unfold tellUnawaited
  refine h.bind fun r w₁ hr => ?_
  cases r with
  | ok _ =>
    obtain ⟨hcontained, hnone⟩ := hr
    rw [hnone]
    exact .pure (hcontained.trans (List.append_nil _).symm)
  | error fault =>
    obtain ⟨hcontained, hfault⟩ := hr
    rw [hfault]
    show (w₁.events ++ [Event.unhandled fault]).filter Event.isEscape = _
    rw [List.filter_append, hcontained]
    rfl

end Workbench

/-! ### What happens to the program -/

theorem Step.perform_contained (step : Step) : Within Contained step.perform :=
  perform_keeps rfl rfl (fun _ => rfl) step

def Workbench.registered? (b : Workbench) (id : String) : Option Command :=
  if b.isRegistered then Command.ofId? id else none

/-- The failure that is left to nobody: a command needs a document, there is none, and telling the user so
fails. -/
def Act.abandoned? (a : Act) (b : Workbench) : Option Fault :=
  match a with
  | .invoke id _ =>
    if (b.registered? id).any Command.needsDocument ∧ (Workbench.activeDocument? b.window).isNone then
      b.window.failureOf? .showError
    else none
  | _ => none

namespace Workbench

def abandoned (w : Window) (acts : List Act) : List Fault :=
  trace (fun b a => (a.abandoned? b).toList) (activate w) acts

theorem invoke_escapes (id : String) (arguments : List Json) (b : Workbench) :
    Gives (invoke id arguments) b fun _ b' => b'.window.escaped =
      b.window.escaped ++ (((Act.invoke id arguments).abandoned? b).map Event.unhandled).toList := by
  have hcontained : ∀ {b' : Workbench}, InWindow Contained b b' →
      b'.window.escaped = b.window.escaped ++ ((none : Option Fault).map Event.unhandled).toList := fun h =>
    h.trans (List.append_nil _).symm
  unfold invoke Act.abandoned? registered?
  refine look ?_
  dsimp only
  cases (if b.isRegistered then Command.ofId? id else none) with
  | none => exact hcontained (within_onWindow (R := Contained) (emit_keeps rfl) b)
  | some command =>
    cases hneeds : command.needsDocument with
    | false =>
      rw [if_neg (by simp [hneeds])]
      exact (runCommand_framed (R := Contained) command arguments (by simp [hneeds])).mono fun _ _ => hcontained
    | true =>
      cases hdocument : activeDocument? b.window with
      | none =>
        rw [if_pos (by simp [hneeds])]
        exact runCommand_of_no_document hneeds hdocument arguments fun text => tellUnawaited_escapes text b.window
      | some document =>
        rw [if_neg (by simp)]
        exact (runCommand_framed (R := Contained) command arguments (by simp [hdocument])).mono fun _ _ =>
          hcontained

/-- What is left to nobody when something happens is the one failure of that. -/
theorem escaped_after (b : Workbench) (a : Act) : (b.after a).window.escaped =
    b.window.escaped ++ ((a.abandoned? b).map Event.unhandled).toList := by
  cases a with
  | step step => exact (perform_framed step.perform_contained b).trans (List.append_nil _).symm
  | invoke id arguments => exact invoke_escapes id arguments b
  | deactivate => exact (deactivate_framed (R := Contained) b).trans (List.append_nil _).symm
  | dispose => exact (dispose_framed (R := Contained) b).trans (List.append_nil _).symm

theorem escaped_run (w : Window) (acts : List Act) :
    (run w acts).window.escaped = w.escaped ++ (abandoned w acts).map .unhandled := by
  induction acts using List.reverseRecOn with
  | nil =>
    have hactivate : Contained w (activate w).window :=
      activate_within (log_framed (R := Contained)) (fun _ => emit_keeps rfl) w
    exact hactivate.trans (List.append_nil _).symm
  | append_singleton acts a ih =>
    rw [run_concat, escaped_after, ih, abandoned, abandoned, trace_concat, List.map_append, List.append_assoc]
    cases a.abandoned? (run w acts) <;> rfl

/-- No call fails to whoever made it, and of all failures, whatever was made to fail, just those are handled by
nobody that a command leaves when it needs a document, there is none, and telling the user so fails. -/
theorem failures_stay_inside_iff {w : Window} (hw : w.escaped = []) (acts : List Act) :
    (∀ fault, .thrown fault ∉ (run w acts).window.events) ∧
      (run w acts).window.escaped = (abandoned w acts).map .unhandled ∧
      ((∀ fault, .unhandled fault ∉ (run w acts).window.events) ↔
        ∀ before a rest, acts = before ++ a :: rest → a.abandoned? (run w before) = none) := by
  have hrun := escaped_run w acts
  rw [hw, List.nil_append] at hrun
  have hmem : ∀ {e : Event}, e.isEscape = true →
      (e ∈ (run w acts).window.events ↔ e ∈ (abandoned w acts).map .unhandled) := fun he => by
    rw [← hrun, escaped, List.mem_filter, and_iff_left he]
  refine ⟨fun fault => ?_, hrun, ?_⟩
  · rw [hmem rfl]
    simp
  · simp only [hmem (e := .unhandled _) rfl, List.mem_map, Event.unhandled.injEq, exists_eq_right,
      ← List.eq_nil_iff_forall_not_mem]
    refine (trace_eq_nil_iff w acts).trans ?_
    simp only [Option.toList_eq_nil_iff]

/-- Telling the user about an error is made to fail, and commands that need a document are invoked. -/
def silencedActs : List Act :=
  [.step (.arm .showError "no message"), .invoke Command.compile.id [], .invoke Command.format.id []]

/-- With a document in the active pane they leave no failure to nobody. -/
theorem silencedActs_contained : sourceWindow.escaped = [] ∧ (run sourceWindow silencedActs).window.escaped = [] :=
  have hcontained := (failures_stay_inside_iff (w := sourceWindow) rfl silencedActs).2.1
  ⟨rfl, hcontained.trans rfl⟩

/-- Without a document the first of them leaves one. -/
theorem untold_failure_escapes :
    Window.Fresh {} ∧ (run {} silencedActs).window.escaped = [.unhandled (.ofMessage "no message")] :=
  ⟨⟨rfl, rfl, rfl, rfl, rfl, by simp, by simp⟩, rfl⟩

end Workbench

end AsmLens
