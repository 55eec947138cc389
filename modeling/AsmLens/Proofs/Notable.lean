import AsmLens.Proofs.Framing

/-!
# What is notable

Of all that leaves the program, requests, messages to the user and logged errors are notable. Documents,
decorations, prompts and compiler messages are shown without anything notable: `Window.Unnoted`. Most of what
is notable is not a request (`Window.Unsent`).
-/

namespace AsmLens

namespace Event

def isRequest : Event → Bool
  | .request _ _ => true
  | _ => false

def isFailure : Event → Bool
  | .logError _ _ => true
  | _ => false

def isNotable (e : Event) : Bool := e.isRequest || e.isMessage || e.isFailure

end Event

namespace Window

def sent (w : Window) : List Event := w.events.filter Event.isRequest

def notable (w : Window) : List Event := w.events.filter Event.isNotable

/-- Nothing notable left the program. -/
def Unnoted (w w' : Window) : Prop := w'.notable = w.notable

def Unsent (w w' : Window) : Prop := w'.sent = w.sent

instance : Frame Unnoted where
  refl _ := rfl
  trans h h' := h'.trans h

instance : Frame Unsent where
  refl _ := rfl
  trans h h' := h'.trans h

theorem sent_eq (w : Window) : w.sent = w.notable.filter Event.isRequest := by
  rw [notable, List.filter_filter, sent]
  congr 1
  funext e
  cases e <;> rfl

theorem Unnoted.unsent {w w' : Window} (h : Unnoted w w') : Unsent w w' := by
  rw [Unsent, sent_eq, sent_eq, h]

end Window

open Window

theorem Holds.unsent {α : Type} {x : Host α} (h : Holds Unnoted x) : Holds Unsent x := fun w =>
  (h w).mono (fun _ _ => Unnoted.unsent) fun _ _ => Unnoted.unsent

theorem emit_unnoted {e : Event} (h : e.isNotable = false) : Within Unnoted (emit e) := emit_keeps h

theorem emit_unsent {e : Event} (h : e.isRequest = false) : Within Unsent (emit e) := emit_keeps h

theorem log_unnoted (texts : List String) : Within Unnoted (log texts) := emit_unnoted rfl

/-! ### What is shown without anything notable, and without a request -/

namespace Window

instance : Displaying Unnoted :=
  displaying_keeps (p := Event.isNotable) (fun e he => by cases e <;> first | rfl | nomatch he)
    fun e he => by cases e <;> first | rfl | nomatch he

theorem not_isNotable_of_isPrompt {e : Event} (h : e.isPrompt = true) : e.isNotable = false := by
  cases e <;> first | rfl | nomatch h

theorem askChoice_unnoted (question template : String) (items : List Json) :
    Holds Unnoted (Prompt.askChoice question template items) :=
  askChoice_keeps (fun _ => not_isNotable_of_isPrompt) question template items

theorem askText_unnoted (question value : String) : Holds Unnoted (Prompt.askText question value) :=
  askText_keeps (fun _ => not_isNotable_of_isPrompt) question value

instance : Displaying Unsent :=
  displaying_keeps (p := Event.isRequest) (fun e he => by cases e <;> first | rfl | nomatch he)
    fun e he => by cases e <;> first | rfl | nomatch he

instance : Asking Unsent where
  tell {e} he := emit_unsent (by cases e <;> first | rfl | nomatch he)
  askChoice question template items := (askChoice_unnoted question template items).unsent
  askText question value := (askText_unnoted question value).unsent

instance : Replacing Unsent where
  replace _ _ _ _ := emit_unsent rfl

end Window

/-! ### What happens in the window -/

namespace Step

/-- A step in the window adds no requests and no prompts, and leaves compiler messages, decorations and all that
is notable to the program. If it is noticed, it leaves how the service is reached. -/
structure Upholds (l : List Notice) (w w' : Window) : Prop where
  requests : w'.requests.length = w.requests.length
  prompts : w'.prompts.length = w.prompts.length
  diagnostics : w'.diagnostics = w.diagnostics
  notable : Unnoted w w'
  painted : w'.painted = w.painted
  reached : l = [] ∨ w'.settings = w.settings ∧ w'.environment = w.environment

theorem upholds_of_same {l : List Notice} {w w' : Window} (hrequests : w'.requests = w.requests)
    (hprompts : w'.prompts = w.prompts) (hdiagnostics : w'.diagnostics = w.diagnostics)
    (hevents : w'.events = w.events)
    (hreached : l = [] ∨ w'.settings = w.settings ∧ w'.environment = w.environment) : Upholds l w w' :=
  ⟨by rw [hrequests], by rw [hprompts], hdiagnostics, congrArg (List.filter _) hevents,
    congrArg (List.filter _) hevents, hreached⟩

theorem upholds_self (l : List Notice) (w : Window) : Upholds l w w :=
  upholds_of_same rfl rfl rfl rfl (.inr ⟨rfl, rfl⟩)

theorem answerPrompt_upholds (named : Option Nat) (read : Prompt → Answer) (w : Window) :
    Gives (answerPrompt named read) w fun l w' => Upholds l w w' := by
  unfold answerPrompt
  refine .look ?_
  cases w.promptFor? named with
  | none =>
    exact ⟨rfl, rfl, rfl, filter_concat_of_false rfl w.events, filter_concat_of_false rfl w.events, .inl rfl⟩
  | some n =>
    refine (close_gives n read w).bind fun r w' h => .pure ?_
    obtain ⟨-, rfl⟩ | ⟨p, -, -, -, rfl⟩ := h
    · exact upholds_self _ w'
    · exact ⟨rfl, List.length_set, rfl, filter_concat_of_false rfl w.events,
        filter_concat_of_false rfl w.events, .inr ⟨rfl, rfl⟩⟩

theorem perform_upholds (step : Step) (w : Window) :
    Gives step.perform w fun l w' => Upholds l w w' := by
  cases step with
  | reply named reply =>
    refine Gives.look ?_
    cases w.requestFor? named with
    | none =>
    exact ⟨rfl, rfl, rfl, filter_concat_of_false rfl w.events, filter_concat_of_false rfl w.events, .inl rfl⟩
    | some n => exact ⟨List.length_set, rfl, rfl, rfl, rfl, .inr ⟨rfl, rfl⟩⟩
  | showDocument uri selection =>
    refine Gives.look ?_
    cases w.findDocument? uri <;> exact upholds_of_same rfl rfl rfl rfl (.inl rfl)
  | focus uri => exact upholds_of_same rfl rfl rfl rfl (.inr ⟨rfl, rfl⟩)
  | select uri selections =>
    cases selections with
    | nil => exact upholds_self _ w
    | cons selection rest =>
      show Upholds _ w (w.setSelection uri selection)
      unfold setSelection
      split <;> exact upholds_of_same rfl rfl rfl rfl (.inr ⟨rfl, rfl⟩)
  | close uri =>
    refine (closeAt_closing uri w).mono fun l w' h => ?_
    cases h with
    | missing hn => exact upholds_self _ w
    | active hn hactive | inactive hn => exact upholds_of_same rfl rfl rfl rfl (.inr ⟨rfl, rfl⟩)
  | changeText uri text =>
    refine Gives.look ?_
    cases w.findDocument? uri <;> exact upholds_of_same rfl rfl rfl rfl (.inl rfl)
  | chooseAction message chosen => exact upholds_self _ w
  | pick named positions => exact answerPrompt_upholds named _ w
  | enter named text => exact answerPrompt_upholds named _ w
  | hide named => exact answerPrompt_upholds named _ w
  | _ => exact upholds_of_same rfl rfl rfl rfl (.inl rfl)

end Step

end AsmLens
