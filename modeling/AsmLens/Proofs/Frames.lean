import AsmLens.Proofs.Happening

/-!
# Frames that take in what the program does

Many frames take in all that a part of the program does, whatever it is: whether requests were sent, which
messages were shown, what became of the prompts. Such a frame needs to be known only for the few kinds of
things that the program does. A `Displaying` frame takes in what is displayed of documents, sessions and
compiler messages, a `Telling` frame what is told to the user and logged as an error, an `Asking` frame the
prompts, a `Replacing` frame the edits of documents, and a `Sending` frame the requests.

The frames about events are of this kind. Most of what happens in the window adds no event at all.
-/

namespace AsmLens

namespace Event

/-- Whether an event displays something other than decorations, messages, prompts and edits, or only logs. -/
def isDisplay : Event → Bool
  | .log _ | .documentOpened _ | .documentShown _ _ | .contentChanged _ | .diagnosticsSet _ _
  | .diagnosticsRemoved _ | .diagnosticsDisposed | .openedOutside _
  | .commandRegistered _ | .noRequest | .noPrompt | .noCommand _ => true
  | _ => false

/-- Whether an event is a message to the user or a logged error. -/
def isTelling : Event → Bool
  | .message _ _ _ _ _ | .logError _ _ => true
  | _ => false

def prompt? : Event → Option Nat
  | .choicePrompt n _ _ _ | .textPrompt n _ _ _ | .promptDisposed n => some n
  | _ => none

def isPrompt (e : Event) : Bool := e.prompt?.isSome

end Event

namespace Window

variable {w w' : Window}

/-- Nothing left the program, prompts stayed as they were, and so did decorations: a visible pane has none or
those of a pane that was visible before. -/
structure Still (w w' : Window) : Prop where
  events : w'.events = w.events
  prompts : w'.prompts = w.prompts
  decorationTypes : w'.decorationTypes = w.decorationTypes
  panes : ∀ p' ∈ w'.panes, p'.isVisible = true →
    p'.decorations = [] ∨ ∃ p ∈ w.panes, p.isVisible = true ∧ p'.decorations = p.decorations

theorem still_of_same (hevents : w'.events = w.events) (hprompts : w'.prompts = w.prompts)
    (hdecorationTypes : w'.decorationTypes = w.decorationTypes) (hpanes : w'.panes = w.panes) : Still w w' :=
  ⟨hevents, hprompts, hdecorationTypes, fun p hp hvisible => .inr ⟨p, hpanes ▸ hp, hvisible, rfl⟩⟩

theorem still_addPane (w : Window) (n : Nat) (selection : Selection) : Still w (w.addPane n selection) := by
  refine ⟨rfl, rfl, rfl, fun p hp hvisible => ?_⟩
  rcases List.mem_append.1 hp with hp | hp
  · exact .inr ⟨p, hp, hvisible, rfl⟩
  · rw [List.mem_singleton.1 hp]
    exact .inl rfl

/-- A frame that takes in what is displayed. -/
class Displaying (R : Window → Window → Prop) : Prop extends Frame R where
  /-- What neither leaves the program nor is about prompts and decorations. -/
  still : ∀ {w w'}, Still w w' → R w w'
  display : ∀ {e : Event}, e.isDisplay = true → ∀ w : Window, R w { w with events := w.events ++ [e] }
  create : ∀ color, Holds R (Decoration.create color)
  dispose : ∀ n, Within R (Decoration.dispose n)
  draw : ∀ uri n ranges, Within R (Decoration.draw uri n ranges)

class Telling (R : Window → Window → Prop) : Prop extends Displaying R where
  tell : ∀ {e : Event}, e.isTelling = true → ∀ w : Window, R w { w with events := w.events ++ [e] }

class Asking (R : Window → Window → Prop) : Prop extends Telling R where
  askChoice : ∀ question template items, Holds R (Prompt.askChoice question template items)
  askText : ∀ question value, Holds R (Prompt.askText question value)

class Replacing (R : Window → Window → Prop) : Prop where
  replace : ∀ uri range text applied, Within R (emit (.replaced uri range text applied))

class Sending (R : Window → Window → Prop) : Prop where
  send : ∀ n request (w : Window), R w { w with events := w.events ++ [.request n request] }

end Window

/-! ### Frames about events -/

namespace Window

/-- Nothing left the program of what `p` picks out. -/
def Keeps (p : Event → Bool) (w w' : Window) : Prop := w'.events.filter p = w.events.filter p

instance {p : Event → Bool} : Frame (Keeps p) where
  refl _ := rfl
  trans h h' := h'.trans h

/-- As `Keeps`, and the prompts stayed as they were. -/
structure Untouched (p : Event → Bool) (w w' : Window) : Prop where
  prompts : w'.prompts = w.prompts
  keeps : Keeps p w w'

instance {p : Event → Bool} : Frame (Untouched p) where
  refl _ := ⟨rfl, rfl⟩
  trans h h' := ⟨h'.prompts.trans h.prompts, Frame.trans h.keeps h'.keeps⟩

variable {p : Event → Bool}

theorem emit_untouched {e : Event} (h : p e = false) : Within (Untouched p) (emit e) := fun w =>
  ⟨rfl, filter_concat_of_false h w.events⟩

theorem emit_keeps {e : Event} (h : p e = false) : Within (Keeps p) (emit e) :=
  Within.mono (emit_untouched h) fun _ _ h => h.keeps

theorem attempt_untouched (call : HostCall) : Holds (Untouched p) (attempt call) := fun w =>
  (attempt_exactly call w).mono (fun _ w' h => by rw [h.1]; exact Frame.refl w) fun _ w' h => by
    rw [h.1]
    exact ⟨rfl, rfl⟩

section Displaying

variable (hdecoration : ∀ e : Event, e.isDecoration = true → p e = false)

include hdecoration

theorem create_untouched (color : String) : Holds (Untouched p) (Decoration.create color) :=
  (attempt_untouched _).bind fun _ => .look fun _ => Holds.bind (fun _ => ⟨rfl, rfl⟩) fun _ =>
    (Holds.lift (emit_untouched (hdecoration _ rfl))).bind fun _ => .pure _

theorem dispose_untouched (n : Nat) : Within (Untouched p) (Decoration.dispose n) :=
  Within.bind (fun _ => ⟨rfl, rfl⟩) fun _ => emit_untouched (hdecoration _ rfl)

theorem draw_untouched (uri : Uri) (n : Nat) (ranges : List Range) :
    Within (Untouched p) (Decoration.draw uri n ranges) := by
  refine .look fun w => .look fun w' => ?_
  dsimp only
  exact Within.bind (fun _ => ⟨rfl, rfl⟩) fun _ => .forM fun _ _ => emit_untouched (hdecoration _ rfl)

theorem displaying_untouched (hdisplay : ∀ e : Event, e.isDisplay = true → p e = false) :
    Displaying (Untouched p) where
  still h := ⟨h.prompts, congrArg (List.filter p) h.events⟩
  display he w := ⟨rfl, filter_concat_of_false (hdisplay _ he) w.events⟩
  create := create_untouched hdecoration
  dispose := dispose_untouched hdecoration
  draw := draw_untouched hdecoration

theorem displaying_keeps (hdisplay : ∀ e : Event, e.isDisplay = true → p e = false) : Displaying (Keeps p) where
  still h := congrArg (List.filter p) h.events
  display he w := filter_concat_of_false (hdisplay _ he) w.events
  create color := Holds.mono (create_untouched hdecoration color) fun _ _ h => h.keeps
  dispose n := Within.mono (dispose_untouched hdecoration n) fun _ _ h => h.keeps
  draw uri n ranges := Within.mono (draw_untouched hdecoration uri n ranges) fun _ _ h => h.keeps

end Displaying

theorem create_prompt_keeps (call : HostCall) (kind : PromptKind) :
    Holds (Keeps p) (Prompt.create call kind) :=
  (Holds.mono (attempt_untouched _) fun _ _ h => h.keeps).bind fun _ =>
    .look fun _ => Holds.bind (fun _ => rfl) fun _ => .pure _

theorem askChoice_keeps (hprompt : ∀ e : Event, e.isPrompt = true → p e = false) (question template : String)
    (items : List Json) : Holds (Keeps p) (Prompt.askChoice question template items) :=
  (create_prompt_keeps _ _).bind fun _ => (Holds.ofExcept _).bind fun _ =>
    Holds.bind (.lift (.bind (fun _ => rfl) fun _ => emit_keeps (hprompt _ rfl))) fun _ => .pure _

theorem askText_keeps (hprompt : ∀ e : Event, e.isPrompt = true → p e = false) (question value : String) :
    Holds (Keeps p) (Prompt.askText question value) :=
  (create_prompt_keeps _ _).bind fun _ =>
    Holds.bind (.lift (.bind (fun _ => rfl) fun _ => emit_keeps (hprompt _ rfl))) fun _ => .pure _

def AddsEvents (w w' : Window) : Prop := w.events <+: w'.events

instance : Frame AddsEvents where
  refl _ := List.prefix_rfl
  trans := List.IsPrefix.trans

theorem addsEvents_of_same {w w' : Window} (h : w'.events = w.events) : AddsEvents w w' :=
  ⟨[], (List.append_nil _).trans h.symm⟩

theorem emit_adds (e : Event) : Within AddsEvents (emit e) := fun _ => List.prefix_append _ _

theorem attempt_adds (call : HostCall) : Holds AddsEvents (attempt call) := fun w =>
  (attempt_ends call w).mono (fun _ w' h => by rw [h.1]; exact Frame.refl w) fun _ _ h => h.1.events

instance : Displaying AddsEvents where
  still h := addsEvents_of_same h.events
  display _ _ := List.prefix_append _ _
  create _ := (attempt_adds _).bind fun _ => .look fun _ => Holds.bind (fun _ => List.prefix_rfl) fun _ =>
    (Holds.lift (emit_adds _)).bind fun _ => .pure _
  dispose _ := Within.bind (fun _ => List.prefix_rfl) fun _ => emit_adds _
  draw uri n ranges := by
    refine .look fun w => .look fun w' => ?_
    dsimp only
    exact Within.bind (fun _ => List.prefix_rfl) fun _ => .forM fun _ _ => emit_adds _

instance : Asking AddsEvents where
  tell _ _ := List.prefix_append _ _
  askChoice question template items w := (Prompt.askChoice_ends question template items w).mono
    (fun _ _ h => h.1.events) fun _ _ h => h.1.events
  askText question value w := (Prompt.askText_ends question value w).mono
    (fun _ _ h => h.1.events) fun _ _ h => h.1.events

instance : Replacing AddsEvents where
  replace _ _ _ _ := emit_adds _

instance : Sending AddsEvents where
  send _ _ _ := List.prefix_append _ _

end Window

open Window

/-! ### What happens in the window -/

namespace Step

variable {p : Event → Bool}

theorem answerPrompt_events (named : Option Nat) (read : Prompt → Answer) (w : Window) :
    Gives (answerPrompt named read) w fun _ w' => w'.events = w.events ∨
      ∃ e, w'.events = w.events ++ [e] ∧ (e = .noPrompt ∨ ∃ n, e = .promptDisposed n) := by
  refine .look ?_
  cases w.promptFor? named with
  | none => exact .inr ⟨_, rfl, .inl rfl⟩
  | some n =>
    refine (close_gives n read w).bind fun r w' h => .pure ?_
    obtain ⟨-, rfl⟩ | ⟨q, -, -, -, rfl⟩ := h
    · exact .inl rfl
    · exact .inr ⟨_, rfl, .inr ⟨n, rfl⟩⟩

theorem answerPrompt_keeps (hprompt : p .noPrompt = false) (hdisposed : ∀ n, p (.promptDisposed n) = false)
    (named : Option Nat) (read : Prompt → Answer) : Within (Keeps p) (answerPrompt named read) := fun w => by
  refine (answerPrompt_events named read w).mono fun _ w' h => ?_
  unfold Keeps
  obtain hsame | ⟨e, hnew, rfl | ⟨n, rfl⟩⟩ := h
  · rw [hsame]
  · rw [hnew, filter_concat_of_false hprompt]
  · rw [hnew, filter_concat_of_false (hdisposed n)]

theorem perform_events {step : Step} (hstep : step.reading? = none) (w : Window) :
    Gives step.perform w fun _ w' => w'.prompts = w.prompts ∧
      (w'.events = w.events ∨ w'.events = w.events ++ [.noRequest]) := by
  cases step with
  | reply named reply =>
    refine Gives.look ?_
    cases w.requestFor? named with
    | none => exact ⟨rfl, .inr rfl⟩
    | some n => exact ⟨rfl, .inl rfl⟩
  | showDocument uri selection =>
    refine Gives.look ?_
    cases w.findDocument? uri <;> exact ⟨rfl, .inl rfl⟩
  | select uri selections =>
    cases selections with
    | nil => exact ⟨rfl, .inl rfl⟩
    | cons selection rest =>
      show (w.setSelection uri selection).prompts = _ ∧ ((w.setSelection uri selection).events = _ ∨ _)
      unfold setSelection
      split <;> exact ⟨rfl, .inl rfl⟩
  | close uri =>
    refine (closeAt_closing uri w).mono fun l w' h => ?_
    cases h <;> exact ⟨rfl, .inl rfl⟩
  | changeText uri text =>
    refine Gives.look ?_
    cases w.findDocument? uri <;> exact ⟨rfl, .inl rfl⟩
  | pick named positions => nomatch hstep
  | enter named text => nomatch hstep
  | hide named => nomatch hstep
  | _ => exact ⟨rfl, .inl rfl⟩

theorem perform_untouched (hrequest : p .noRequest = false) {step : Step} (hstep : step.reading? = none) :
    Within (Untouched p) step.perform := fun w => by
  refine (perform_events hstep w).mono fun _ w' h => ⟨h.1, ?_⟩
  unfold Keeps
  obtain hsame | hnew := h.2
  · rw [hsame]
  · rw [hnew, filter_concat_of_false hrequest]

/-- By what happens in the window nothing leaves the program but answers that nobody waits for, and prompts
that are taken away. -/
theorem perform_keeps (hrequest : p .noRequest = false) (hprompt : p .noPrompt = false)
    (hdisposed : ∀ n, p (.promptDisposed n) = false) (step : Step) : Within (Keeps p) step.perform := by
  cases hreading : step.reading? with
  | none => exact Within.mono (perform_untouched hrequest hreading) fun _ _ h => h.keeps
  | some reading =>
    rw [perform_of_reading hreading]
    exact answerPrompt_keeps hprompt hdisposed reading.1 reading.2

theorem perform_adds (step : Step) : Within AddsEvents step.perform := fun w => by
  cases hreading : step.reading? with
  | none =>
    refine (perform_events hreading w).mono fun _ w' h => ?_
    obtain hsame | hnew := h.2
    · exact addsEvents_of_same hsame
    · exact ⟨_, hnew.symm⟩
  | some reading =>
    rw [perform_of_reading hreading]
    refine (answerPrompt_events reading.1 reading.2 w).mono fun _ w' h => ?_
    obtain hsame | ⟨e, hnew, -⟩ := h
    · exact addsEvents_of_same hsame
    · exact ⟨_, hnew.symm⟩

end Step

end AsmLens
