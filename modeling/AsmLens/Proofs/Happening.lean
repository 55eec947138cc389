import AsmLens.Proofs.Stages
import AsmLens.Window.Step

/-!
# What happens in the window

What a `Step` leaves of the window, and which notices the program gets of it. There is at most one
notice at a time, but for a document that is closed in the active pane; only an answer takes something
away that a task can wait for, and it is the notice of that answer that wakes the task. An answer to a
prompt is one that the prompt can be given.
-/

namespace AsmLens

open Window

/-- What a task was waiting for that goes on after a notice. -/
def Notice.wakes? : Notice → Option Wait
  | .replied n _ => some (.request n)
  | .answered n _ => some (.prompt n)
  | .actionChosen n _ => some (.message n)
  | _ => none

/-- The notices that there can be of one step: at most one, but for a document closed in the active
pane. -/
inductive Notice.AtOnce : List Notice → Prop where
  | none : AtOnce []
  | one (n : Notice) : AtOnce [n]
  | closed (uri : Uri) : AtOnce [.activeChanged none, .closed uri]

/-! ### The handlers of a prompt -/

namespace Prompt

variable {w : Window} {n : Nat} {p : Prompt}

theorem finish_of_closed (answer : Answer) (hp : w.prompts[n]? = some p) (hclosed : p.state = .closed) :
    finish n answer w = ([], w) := by
  rw [finish]
  split
  · rfl
  · rename_i q hq
    cases hq.symm.trans hp
    rw [dif_pos hclosed]

/-- A prompt that is not closed yet reports its answer once: handlers that hear of it again while it is taken
away find it finished. -/
theorem finish_of_not_closed (answer : Answer) (hp : w.prompts[n]? = some p) (hclosed : p.state ≠ .closed) :
    finish n answer w = ([answer], w.dismiss n p) := by
  have hfinished : (w.dismiss n p).prompts[n]? = some p.finished :=
    List.getElem?_set_self (List.getElem?_eq_some_iff.1 hp).1
  rw [finish]
  split
  · rename_i hq
    cases hq.symm.trans hp
  · rename_i q hq
    cases hq.symm.trans hp
    rw [dif_neg hclosed, finish_of_closed .nothing hfinished rfl]
    exact ite_self _

theorem close_of_shown {read : Prompt → Answer} (hp : w.prompts[n]? = some p) (hshown : p.state = .shown) :
    close n read w = ([read p], w.dismiss n p) := by
  have hclose : Gives (close n read) w fun r w' => (r, w') = ([read p], w.dismiss n p) := by
    refine Gives.look ?_
    rw [hp]
    dsimp only
    rw [hears, hshown]
    exact finish_of_not_closed (read p) hp (by rw [hshown]; nofun)
  exact hclose

theorem close_of_not_shown (read : Prompt → Answer) (hp : w.prompts[n]? = some p) (hshown : p.state ≠ .shown) :
    close n read w = ([], w) := by
  have hclose : Gives (close n read) w fun r w' => (r, w') = ([], w) := by
    refine Gives.look ?_
    rw [hp]
    dsimp only
    cases hstate : p.state with
    | made =>
      rw [hears, hstate]
      rfl
    | shown => exact absurd hstate hshown
    | closed =>
      split
      · exact finish_of_closed (read p) hp hstate
      · rfl
  exact hclose

end Prompt

namespace Step

/-- What one step leaves. -/
structure Leaves (w : Window) (l : List Notice) (w' : Window) : Prop where
  notices : Notice.AtOnce l
  sound : w.Sound → w'.Sound ∧ Carries w w'
  decorationTypes : w'.decorationTypes = w.decorationTypes
  waits : ∀ job : Job, job.Waits w → (∀ n ∈ l, n.wakes? ≠ job.wait?) → job.Waits w'
  fits : ∀ n answer, .answered n answer ∈ l →
    ∃ p, w.prompts[n]? = some p ∧ p.state = .shown ∧ answer.Fits p.kind.choices?

variable {w w' : Window} {l : List Notice}

theorem Leaves.of_same (hnotices : Notice.AtOnce l) (hsound : w.Sound → w'.Sound ∧ Carries w w')
    (hdecorationTypes : w'.decorationTypes = w.decorationTypes) (hrequests : w'.requests = w.requests)
    (hprompts : w'.prompts = w.prompts) (hmessages : w'.messages = w.messages)
    (hfits : ∀ n answer, .answered n answer ∉ l) : Leaves w l w' where
  notices := hnotices
  sound := hsound
  decorationTypes := hdecorationTypes
  waits _ h _ := h.grows ⟨hrequests ▸ List.prefix_rfl, hprompts ▸ List.prefix_rfl,
    Nat.le_of_eq hmessages.symm⟩
  fits n answer h := absurd h (hfits n answer)

theorem sound_of_panes (hdocuments : w'.documents = w.documents)
    (hdecorationTypes : w'.decorationTypes = w.decorationTypes)
    (hpanes : ∀ p' ∈ w'.panes, ∃ p ∈ w.panes, p'.document = p.document ∧
      p'.isVisible = p.isVisible ∧ p'.decorations = p.decorations)
    (hw : w.Sound) : w'.Sound ∧ Carries w w' := by
  refine ⟨⟨fun p' hp' hvisible => ?_, fun p' hp' n hn => ?_⟩, fun p' hp' hvisible => ?_⟩
  · obtain ⟨p, hp, hdocument, hlive, -⟩ := hpanes p' hp'
    rw [hdocuments, hdocument]
    exact hw.open_of_visible p hp (hlive ▸ hvisible)
  · obtain ⟨p, hp, -, -, hdecorations⟩ := hpanes p' hp'
    rw [hdecorations]
    exact hw.undecorated p hp n (hdecorationTypes ▸ hn)
  · obtain ⟨p, hp, hdocument, hlive, hdecorations⟩ := hpanes p' hp'
    refine .inr ⟨p, hp, hlive ▸ hvisible, hdecorations, ?_⟩
    rw [paneUri, paneUri, hdocuments, hdocument]

theorem sound_of_presents (h : Presents w w') (hw : w.Sound) : w'.Sound ∧ Carries w w' :=
  ⟨h.sound hw, h.carries hw⟩

theorem setSelection_sound (w : Window) (uri : Uri) (selection : Selection) (hw : w.Sound) :
    (w.setSelection uri selection).Sound ∧ Carries w (w.setSelection uri selection) := by
  unfold setSelection
  split
  · rename_i i hi
    refine sound_of_panes (w := w) rfl rfl (fun p' hp' => ?_) hw
    obtain ⟨j, hj, hp'⟩ := List.getElem_of_mem hp'
    dsimp only at hj hp'
    rw [List.length_modify] at hj
    rw [List.getElem_modify] at hp'
    refine ⟨w.panes[j], List.getElem_mem hj, ?_⟩
    rw [← hp']
    split <;> exact ⟨rfl, rfl, rfl⟩
  · exact ⟨hw, Frame.refl w⟩

theorem of_mem_closeDocument {n : Nat} {p' : Pane} (hp' : p' ∈ (w.closeDocument n).panes)
    (hvisible : p'.isVisible = true) :
    p' ∈ w.panes ∧ (w.closeDocument n).documents[p'.document]? = w.documents[p'.document]? := by
  obtain ⟨p, hp, rfl⟩ := List.mem_map.1 hp'
  by_cases hn : p.document = n
  · rw [if_pos hn] at hvisible
    nomatch hvisible
  · rw [if_neg hn]
    refine ⟨hp, ?_⟩
    show (w.documents.modify n _)[p.document]? = _
    rw [List.getElem?_modify]
    cases w.documents[p.document]? <;> simp [Ne.symm hn]

theorem closeDocument_sound (w : Window) (n : Nat) (hw : w.Sound) :
    (w.closeDocument n).Sound ∧ Carries w (w.closeDocument n) := by
  refine ⟨⟨fun p' hp' hvisible => ?_, fun p' hp' k hk => ?_⟩, fun p' hp' hvisible => ?_⟩
  · obtain ⟨hp, hdocument⟩ := of_mem_closeDocument hp' hvisible
    rw [hdocument]
    exact hw.open_of_visible p' hp hvisible
  · obtain ⟨p, hp, rfl⟩ := List.mem_map.1 hp'
    have hnone := hw.undecorated p hp k hk
    split <;> exact hnone
  · obtain ⟨hp, hdocument⟩ := of_mem_closeDocument hp' hvisible
    refine .inr ⟨p', hp, hvisible, rfl, ?_⟩
    rw [paneUri, paneUri, hdocument]

/-! ### Answers -/

theorem accepted_fits (p : Prompt) (positions : List Int) :
    (p.accepted (p.selected? positions)).Fits p.kind.choices? := by
  obtain ⟨kind, state⟩ := p
  cases kind with
  | text value => rfl
  | choice count =>
    show Answer.Fits (some count) (Prompt.accepted ⟨.choice count, state⟩
      ((positions.find? fun (i : Int) => 0 ≤ i && i < count).map Int.toNat))
    cases hfound : positions.find? fun (i : Int) => 0 ≤ i && i < count with
    | none => trivial
    | some i =>
      have hi := List.find?_some hfound
      simp only [Bool.and_eq_true, decide_eq_true_eq] at hi
      exact ⟨count, rfl, by omega⟩

theorem entered_fits (p : Prompt) (text : Option String) :
    (((text.map p.withText).getD p).accepted none).Fits p.kind.choices? := by
  obtain ⟨kind, state⟩ := p
  cases kind <;> cases text <;> first | rfl | trivial

theorem close_gives (n : Nat) (read : Prompt → Answer) (w : Window) :
    Gives (Prompt.close n read) w fun r w' => r = [] ∧ w' = w ∨
      ∃ p, w.prompts[n]? = some p ∧ p.state = .shown ∧ r = [read p] ∧ w' = w.dismiss n p := by
  cases hp : w.prompts[n]? with
  | none =>
    refine Gives.look ?_
    rw [hp]
    exact .inl ⟨rfl, rfl⟩
  | some p =>
    by_cases hshown : p.state = .shown
    · rw [Gives, Prompt.close_of_shown hp hshown]
      exact .inr ⟨p, rfl, hshown, rfl, rfl⟩
    · rw [Gives, Prompt.close_of_not_shown read hp hshown]
      exact .inl ⟨rfl, rfl⟩

theorem leaves_answered {n : Nat} {p : Prompt} {answer : Answer} (hp : w.prompts[n]? = some p)
    (hshown : p.state = .shown) (hfits : answer.Fits p.kind.choices?) :
    Leaves w [.answered n answer] (w.dismiss n p) where
  notices := .one _
  sound h := ⟨⟨h.open_of_visible, h.undecorated⟩, carries_of_same rfl rfl⟩
  decorationTypes := rfl
  waits job hjob hother := by
    have hne : (some (Wait.prompt n)) ≠ job.wait? := hother _ List.mem_cons_self
    unfold Job.Waits at hjob ⊢
    cases hwait : job.wait? with
    | none => rw [hwait] at hjob; exact hjob
    | some what =>
      rw [hwait] at hjob hne
      cases what with
      | request m => exact hjob
      | message m => exact hjob
      | prompt m =>
        obtain ⟨q, hq, hrest⟩ := hjob
        exact ⟨q, (List.getElem?_set_ne fun h => hne (by rw [h])).trans hq, hrest⟩
  fits k a h := by
    cases List.mem_singleton.1 h
    exact ⟨p, hp, hshown, hfits⟩

theorem answerPrompt_gives (named : Option Nat) {read : Prompt → Answer}
    (hread : ∀ p, (read p).Fits p.kind.choices?) (w : Window) :
    Gives (answerPrompt named read) w fun l w' => Leaves w l w' := by
  unfold answerPrompt
  refine .look ?_
  cases w.promptFor? named with
  | none =>
    refine (Gives.modify _).bind fun _ w' hw => .pure ?_
    subst hw
    exact .of_same .none (sound_of_panes rfl rfl fun p hp => ⟨p, hp, rfl, rfl, rfl⟩) rfl rfl rfl rfl
      fun _ _ h => nomatch h
  | some n =>
    refine (close_gives n read w).bind fun r w' h => ?_
    obtain ⟨rfl, rfl⟩ | ⟨p, hp, hshown, rfl, rfl⟩ := h
    · exact .pure (.of_same .none (fun hw => ⟨hw, Frame.refl _⟩) rfl rfl rfl rfl fun _ _ h => nomatch h)
    · exact .pure (leaves_answered hp hshown (hread p))

theorem leaves_replied {n : Nat} (reply : Reply) :
    Leaves w [.replied n reply] { w with requests := w.requests.set n false } where
  notices := .one _
  sound h := ⟨⟨h.open_of_visible, h.undecorated⟩, carries_of_same rfl rfl⟩
  decorationTypes := rfl
  waits job hjob hother := by
    have hne : (some (Wait.request n)) ≠ job.wait? := hother _ List.mem_cons_self
    unfold Job.Waits at hjob ⊢
    cases hwait : job.wait? with
    | none => rw [hwait] at hjob; exact hjob
    | some what =>
      rw [hwait] at hjob hne
      cases what with
      | request m =>
        show (w.requests.set n false)[m]? = some true
        rw [List.getElem?_set_ne (fun h => hne (by rw [h])), hjob]
      | message m => exact hjob
      | prompt m => exact hjob
  fits k a h := nomatch List.mem_singleton.1 h

/-- What closing the document under an address can come to. -/
inductive Closing (uri : Uri) (w : Window) : List Notice → Window → Prop
  | missing (hn : w.findDocument? uri = none) : Closing uri w [.closed uri] w
  | active {n : Nat} (hn : w.findDocument? uri = some n) (hactive : w.activePane?.map (·.document) = some n) :
    Closing uri w [.activeChanged none, .closed uri] { w.closeDocument n with active := none }
  | inactive {n : Nat} (hn : w.findDocument? uri = some n) : Closing uri w [.closed uri] (w.closeDocument n)

theorem closeAt_closing (uri : Uri) (w : Window) : Gives (closeAt uri) w (Closing uri w) := by
  unfold closeAt
  refine .look ?_
  cases hn : w.findDocument? uri with
  | none => exact .pure (.missing hn)
  | some n =>
    refine (Gives.set _).bind fun _ w' hw => ?_
    subst hw
    split
    · rename_i hactive
      exact .active hn hactive
    · exact .pure (.inactive hn)

theorem closeAt_gives (uri : Uri) (w : Window) : Gives (closeAt uri) w fun l w' => Leaves w l w' := by
  refine (closeAt_closing uri w).mono fun l w' h => ?_
  cases h with
  | missing hn =>
    exact .of_same (.one _) (fun hw => ⟨hw, Frame.refl w⟩) rfl rfl rfl rfl
      fun _ _ h => nomatch List.mem_singleton.1 h
  | @active n hn hactive =>
    have hsound := closeDocument_sound w n
    have hinactive : w.Sound → Sound { w.closeDocument n with active := none } ∧
        Carries w { w.closeDocument n with active := none } := fun hw =>
      ⟨⟨(hsound hw).1.open_of_visible, (hsound hw).1.undecorated⟩,
        Frame.trans (hsound hw).2 (carries_of_same rfl rfl)⟩
    refine .of_same (.closed uri) hinactive rfl rfl rfl rfl fun _ _ h => ?_
    simp at h
  | @inactive n hn =>
    exact .of_same (.one _) (closeDocument_sound w n) rfl rfl rfl rfl fun _ _ h => nomatch List.mem_singleton.1 h

theorem perform_gives (step : Step) (w : Window) :
    Gives step.perform w fun l w' => Leaves w l w' := by
  have hrefl : w.Sound → w.Sound ∧ Carries w w := fun hw => ⟨hw, Frame.refl w⟩
  have hquiet : ∀ {w' : Window}, (w.Sound → w'.Sound ∧ Carries w w') →
      w'.decorationTypes = w.decorationTypes → w'.requests = w.requests → w'.prompts = w.prompts →
      w'.messages = w.messages → Leaves w [] w' :=
    fun hsound hdecorationTypes hrequests hprompts hmessages =>
      .of_same .none hsound hdecorationTypes hrequests hprompts hmessages fun _ _ h => nomatch h
  have hsame : ∀ {w' : Window}, w'.documents = w.documents → w'.panes = w.panes →
      w'.decorationTypes = w.decorationTypes → w.Sound → w'.Sound ∧ Carries w w' := fun hd hp ht =>
    sound_of_panes hd ht fun p h => ⟨p, hp ▸ h, rfl, rfl, rfl⟩
  cases step with
  | reply named reply =>
    refine Gives.look ?_
    cases w.requestFor? named with
    | none => exact hquiet (hsame rfl rfl rfl) rfl rfl rfl rfl
    | some n => exact leaves_replied reply
  | changeSettings settings => exact hquiet (hsame rfl rfl rfl) rfl rfl rfl rfl
  | changeEnvironment address => exact hquiet (hsame rfl rfl rfl) rfl rfl rfl rfl
  | openDocument uri text fileName =>
    exact hquiet (sound_of_presents (presents_addDocument w _)) rfl rfl rfl rfl
  | showDocument uri selection =>
    refine Gives.look ?_
    cases hn : w.findDocument? uri with
    | none => exact hquiet hrefl rfl rfl rfl rfl
    | some n =>
      obtain ⟨d, hd, ho, -⟩ := of_findDocument? hn
      exact hquiet (sound_of_presents (presents_addPane w n selection ⟨d, hd, ho⟩)) rfl rfl rfl rfl
  | focus uri =>
    exact .of_same (.one _) (hsame rfl rfl rfl) rfl rfl rfl rfl fun _ _ h => nomatch List.mem_singleton.1 h
  | select uri selections =>
    have hone : ∀ {w' : Window}, (w.Sound → w'.Sound ∧ Carries w w') →
        w'.decorationTypes = w.decorationTypes → w'.requests = w.requests → w'.prompts = w.prompts →
        w'.messages = w.messages →
        Leaves w [.selectionChanged uri selections] w' :=
      fun hsound hdecorationTypes hrequests hprompts hmessages =>
        .of_same (.one _) hsound hdecorationTypes hrequests hprompts hmessages
          fun _ _ h => nomatch List.mem_singleton.1 h
    cases selections with
    | nil => exact hone hrefl rfl rfl rfl rfl
    | cons selection rest =>
      have hsound := setSelection_sound w uri selection
      show Leaves w _ (w.setSelection uri selection)
      unfold setSelection at hsound ⊢
      cases hfound : w.findPane? uri with
      | none => exact hone hrefl rfl rfl rfl rfl
      | some i =>
        rw [hfound] at hsound
        exact hone hsound rfl rfl rfl rfl
  | close uri => exact closeAt_gives uri w
  | changeText uri text =>
    refine Gives.look ?_
    cases hn : w.findDocument? uri with
    | none => exact hquiet hrefl rfl rfl rfl rfl
    | some n => exact hquiet (sound_of_presents (presents_setText w n text)) rfl rfl rfl rfl
  | arm call message => exact hquiet (hsame rfl rfl rfl) rfl rfl rfl rfl
  | chooseAction message chosen =>
    exact .of_same (.one _) hrefl rfl rfl rfl rfl fun _ _ h => nomatch List.mem_singleton.1 h
  | pick named positions => exact answerPrompt_gives named (fun p => accepted_fits p positions) w
  | enter named text => exact answerPrompt_gives named (fun p => entered_fits p text) w
  | hide named =>
    have hnothing : ∀ p : Prompt, Answer.nothing.Fits p.kind.choices? := fun _ => trivial
    exact answerPrompt_gives named hnothing w

theorem perform_reply {w : Window} {named : Option Nat} {k : Nat} (reply : Reply)
    (h : w.requestFor? named = some k) :
    Step.perform (.reply named reply) w =
      ([.replied k reply], { w with requests := w.requests.set k false }) := by
  have hperform : Gives (Step.perform (.reply named reply)) w fun l w' =>
      (l, w') = ([.replied k reply], { w with requests := w.requests.set k false }) := by
    refine Gives.look ?_
    rw [h]
    rfl
  exact hperform

theorem answerPrompt_eq_of_shown {w : Window} {named : Option Nat} {k : Nat} {p : Prompt}
    (read : Prompt → Answer) (h : w.promptFor? named = some k) (hp : w.prompts[k]? = some p)
    (hshown : p.state = .shown) :
    answerPrompt named read w = ([.answered k (read p)], w.dismiss k p) := by
  have hperform : Gives (answerPrompt named read) w fun l w' =>
      (l, w') = ([.answered k (read p)], w.dismiss k p) := by
    refine Gives.look ?_
    rw [h]
    show ((Prompt.close k read w).1.map _, (Prompt.close k read w).2) = _
    rw [Prompt.close_of_shown hp hshown]
    rfl
  exact hperform

theorem answerPrompt_of_shown {w : Window} {named : Option Nat} {k : Nat} {p : Prompt}
    (read : Prompt → Answer) (h : w.promptFor? named = some k) (hp : w.prompts[k]? = some p)
    (hshown : p.state = .shown) : (answerPrompt named read w).1 = [.answered k (read p)] :=
  congrArg Prod.fst (answerPrompt_eq_of_shown read h hp hshown)

theorem answerPrompt_of_not_shown {w : Window} {named : Option Nat} {k : Nat} {p : Prompt}
    (read : Prompt → Answer) (h : w.promptFor? named = some k) (hp : w.prompts[k]? = some p)
    (hshown : p.state ≠ .shown) : answerPrompt named read w = ([], w) := by
  have hperform : Gives (answerPrompt named read) w fun l w' => (l, w') = ([], w) := by
    refine Gives.look ?_
    rw [h]
    show ((Prompt.close k read w).1.map _, (Prompt.close k read w).2) = _
    rw [Prompt.close_of_not_shown read hp hshown]
    rfl
  exact hperform

theorem perform_hide {w : Window} {named : Option Nat} {k : Nat} (h : w.promptFor? named = some k)
    (hshown : w.prompts[k]?.map (·.state) = some .shown) :
    (Step.perform (.hide named) w).1 = [.answered k .nothing] := by
  obtain ⟨p, hp, hstate⟩ := Option.map_eq_some_iff.1 hshown
  exact answerPrompt_of_shown (fun _ => .nothing) h hp hstate

/-! ### Answers leave documents alone -/

structure Answered (w w' : Window) : Prop where
  documents : w'.documents = w.documents
  panes : w'.panes = w.panes
  active : w'.active = w.active
  diagnostics : w'.diagnostics = w.diagnostics
  decorationTypes : w'.decorationTypes = w.decorationTypes
  failures : w'.failures = w.failures
  shown : w'.shown = w.shown

theorem answerPrompt_answered (named : Option Nat) (read : Prompt → Answer) (w : Window) :
    Gives (answerPrompt named read) w fun _ w' => Answered w w' := by
  unfold answerPrompt
  refine .look ?_
  cases w.promptFor? named with
  | none =>
    exact ⟨rfl, rfl, rfl, rfl, rfl, rfl, filter_concat_of_false rfl w.events⟩
  | some n =>
    refine (close_gives n read w).bind fun r w' h => .pure ?_
    obtain ⟨-, rfl⟩ | ⟨p, -, -, -, rfl⟩ := h
    · exact ⟨rfl, rfl, rfl, rfl, rfl, rfl, rfl⟩
    · exact ⟨rfl, rfl, rfl, rfl, rfl, rfl, filter_concat_of_false rfl w.events⟩

theorem answerPrompt_answers (named : Option Nat) (read : Prompt → Answer) (w : Window) :
    Gives (answerPrompt named read) w fun l _ => ∀ n ∈ l, ∃ k answer, n = .answered k answer := by
  unfold answerPrompt
  refine .look ?_
  cases w.promptFor? named with
  | none => exact (Gives.modify _).bind fun _ _ _ => .pure (List.forall_mem_nil _)
  | some k =>
    refine (close_gives k read w).bind fun r w' _ => .pure fun n hn => ?_
    obtain ⟨answer, -, rfl⟩ := List.mem_map.1 hn
    exact ⟨k, answer, rfl⟩

theorem closeAt_notices (closed : Uri) (w : Window) :
    Gives (closeAt closed) w fun l _ => l = [.closed closed] ∨ l = [.activeChanged none, .closed closed] := by
  refine (closeAt_closing closed w).mono fun l w' h => ?_
  cases h with
  | active hn hactive => exact .inr rfl
  | missing hn | inactive hn => exact .inl rfl

theorem of_mem_closeAt {closed : Uri} {w : Window} {n : Notice} (h : n ∈ (closeAt closed w).1) :
    n = .activeChanged none ∨ n = .closed closed := by
  obtain hl | hl := closeAt_notices closed w
  · rw [hl, List.mem_singleton] at h
    exact .inr h
  · rw [hl] at h
    exact List.mem_pair.1 h

/-! ### What notices tell of a step -/

/-- Which prompt the user turns to by a step, and what the prompt is answered with, if it is still open. -/
def reading? : Step → Option (Option Nat × (Prompt → Answer))
  | .pick named positions => some (named, fun p => p.accepted (p.selected? positions))
  | .enter named text => some (named, fun p => ((text.map p.withText).getD p).accepted none)
  | .hide named => some (named, fun _ => .nothing)
  | _ => none

theorem perform_of_reading {step : Step} {named : Option Nat} {read : Prompt → Answer}
    (h : step.reading? = some (named, read)) : step.perform = answerPrompt named read := by
  cases step <;> cases h <;> rfl

inductive Brings (w : Window) : Step → Notice → Prop where
  | replied {named : Option Nat} {k : Nat} {reply : Reply} (h : w.requestFor? named = some k) :
    Brings w (.reply named reply) (.replied k reply)
  | answered {step : Step} {k : Nat} {answer : Answer} (h : step.reading?.isSome = true) :
    Brings w step (.answered k answer)
  | actionChosen {message : Nat} {chosen : Option String} :
    Brings w (.chooseAction message chosen) (.actionChosen message chosen)
  | selected {uri : Uri} {selections : List Selection} :
    Brings w (.select uri selections) (.selectionChanged uri selections)
  | focused {uri active : Option Uri} : Brings w (.focus uri) (.activeChanged active)
  | left {uri : Uri} : Brings w (.close uri) (.activeChanged none)
  | closed {uri : Uri} : Brings w (.close uri) (.closed uri)

theorem perform_brings (step : Step) (w : Window) : Gives step.perform w fun l _ => ∀ n ∈ l, Brings w step n := by
  have hone : ∀ {n : Notice}, Brings w step n → ∀ n' ∈ [n], Brings w step n' := fun h n' hn' =>
    List.mem_singleton.1 hn' ▸ h
  have hanswer : ∀ named read, step.reading?.isSome = true →
      Gives (answerPrompt named read) w fun l _ => ∀ n ∈ l, Brings w step n := by
    refine fun named read h => (answerPrompt_answers named read w).mono fun l _ hl n hn => ?_
    obtain ⟨k, answer, rfl⟩ := hl n hn
    exact .answered h
  cases step with
  | reply named reply =>
    refine Gives.look ?_
    cases hrequest : w.requestFor? named with
    | none => exact List.forall_mem_nil _
    | some k => exact hone (.replied hrequest)
  | showDocument uri selection =>
    refine Gives.look ?_
    cases w.findDocument? uri <;> exact List.forall_mem_nil _
  | focus uri => exact hone .focused
  | select uri selections => cases selections <;> exact hone .selected
  | close uri =>
    intro n hn
    obtain rfl | rfl := of_mem_closeAt hn
    · exact .left
    · exact .closed
  | changeText uri text =>
    refine Gives.look ?_
    cases w.findDocument? uri <;> exact List.forall_mem_nil _
  | chooseAction message chosen => exact hone .actionChosen
  | pick named positions => exact hanswer named _ rfl
  | enter named text => exact hanswer named _ rfl
  | hide named => exact hanswer named _ rfl
  | _ => exact List.forall_mem_nil _

/-- A step whose notice wakes a task is an answer, and changes nothing but what was asked. -/
theorem perform_answered (step : Step) (w : Window) :
    Gives step.perform w fun l w' => ∀ n what, l = [n] → n.wakes? = some what → Answered w w' := by
  intro n what hl hn
  cases perform_brings step w n (hl ▸ List.mem_cons_self) with
  | replied hrequest =>
    rw [perform_reply _ hrequest]
    exact ⟨rfl, rfl, rfl, rfl, rfl, rfl, rfl⟩
  | answered hreading =>
    obtain ⟨⟨named, read⟩, hreading⟩ := Option.isSome_iff_exists.1 hreading
    rw [perform_of_reading hreading]
    exact answerPrompt_answered named read w
  | actionChosen => exact ⟨rfl, rfl, rfl, rfl, rfl, rfl, rfl⟩
  | _ => nomatch hn

theorem of_perform_replied {step : Step} {w : Window} {k : Nat} {reply : Reply}
    (h : (step.perform w).1 = [.replied k reply]) :
    ∃ named, step = .reply named reply ∧ w.requestFor? named = some k := by
  cases perform_brings step w _ (h ▸ List.mem_cons_self) with
  | replied hrequest => exact ⟨_, rfl, hrequest⟩

theorem eq_close_of_closed {step : Step} {w : Window} {uri : Uri} (h : .closed uri ∈ (step.perform w).1) :
    step = .close uri := by
  cases perform_brings step w _ h with
  | closed => rfl

end Step

end AsmLens
