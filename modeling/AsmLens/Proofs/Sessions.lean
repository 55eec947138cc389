import AsmLens.Proofs.Canvases
import Mathlib.Data.List.Induction

/-!
# The history of a session

A session is told that the cursor has moved or left, and at last that it is over. Whatever it is told and in
whatever order, the lines that it remembers for a document and the lines on the canvas of that document agree,
each document is changed by the other one alone, and what comes after the end is not even noticed.
-/

namespace AsmLens

inductive SessionEvent where
  | moved (origin : Role) (line : Number)
  | left (origin : Role)
  | ended
deriving DecidableEq

namespace Session

/-! ### Any canvases -/

section

variable {ν : Type} {m : Type → Type} [Monad m] [Canvas m ν]

def take (s : Session ν) : SessionEvent → m (Session ν)
  | .moved origin line => s.cursorMoved origin line
  | .left origin => s.cursorLeft origin
  | .ended => s.finish

def takeAll (s : Session ν) (events : List SessionEvent) : m (Session ν) := events.foldlM take s

theorem take_of_hasEnded {s : Session ν} (hended : s.hasEnded = true) (event : SessionEvent) :
    (s.take event : m _) = pure s := by
  cases event with
  | moved origin line =>
    show s.cursorMoved origin line = _
    unfold cursorMoved
    exact if_pos hended
  | left origin => exact if_pos hended
  | ended =>
    show s.finish = _
    unfold finish
    exact if_pos hended

variable [LawfulMonad m]

theorem takeAll_of_hasEnded {s : Session ν} (hended : s.hasEnded = true) (events : List SessionEvent) :
    (s.takeAll events : m _) = pure s := by
  induction events with
  | nil => rfl
  | cons event events ih =>
    unfold takeAll at ih ⊢
    rw [List.foldlM_cons, take_of_hasEnded hended, pure_bind, ih]

variable {α : Type} {f g : Session ν → m α}

theorem finish_bind_congr (s : Session ν) (h : ∀ s' : Session ν, s'.hasEnded = true → f s' = g s') :
    s.finish >>= f = s.finish >>= g := by
  unfold finish
  by_cases hended : s.hasEnded = true
  · rw [if_pos hended, pure_bind, pure_bind, h s hended]
  · rw [if_neg hended]
    simp only [bind_assoc, pure_bind]
    exact bind_congr fun _ => bind_congr fun _ => bind_congr fun _ => bind_congr fun _ => h _ rfl

theorem takeAll_bind_congr (s : Session ν) {events : List SessionEvent} (hmem : .ended ∈ events)
    (h : ∀ s' : Session ν, s'.hasEnded = true → f s' = g s') :
    s.takeAll events >>= f = s.takeAll events >>= g := by
  induction events generalizing s with
  | nil => nomatch hmem
  | cons event events ih =>
    unfold takeAll at ih ⊢
    rw [List.foldlM_cons, bind_assoc, bind_assoc]
    rcases List.mem_cons.1 hmem with rfl | hmem
    · refine finish_bind_congr s fun s' hended => ?_
      have hrest : (events.foldlM take s' : m _) = pure s' := takeAll_of_hasEnded hended events
      rw [hrest, pure_bind, pure_bind, h s' hended]
    · exact bind_congr fun s' => ih s' hmem

theorem takeAll_append_of_ended (s : Session ν) {events : List SessionEvent} (hmem : .ended ∈ events)
    (later : List SessionEvent) : (s.takeAll (events ++ later) : m _) = s.takeAll events := by
  have happend : (s.takeAll (events ++ later) : m _) = s.takeAll events >>= fun s' => s'.takeAll later :=
    List.foldlM_append
  rw [happend, takeAll_bind_congr s hmem fun s' hended => takeAll_of_hasEnded hended later, bind_pure]

end

/-! ### Canvases that only remember the lines -/

def after (s : Session LineSheet) (events : List SessionEvent) : Session LineSheet := Id.run (s.takeAll events)

theorem after_concat (s : Session LineSheet) (events : List SessionEvent) (event : SessionEvent) :
    s.after (events ++ [event]) = Id.run ((s.after events).take event) := by
  unfold after takeAll
  rw [List.foldlM_append]
  rfl

end Session

namespace LineSheet

theorem lineCount_foldl_add (sheet : LineSheet) (lines : List Number) :
    (lines.foldl add sheet).lineCount = sheet.lineCount := by
  induction lines generalizing sheet with
  | nil => rfl
  | cons line lines ih => rw [List.foldl_cons, ih, lineCount_add]

theorem foldlM_draw (sheet : LineSheet) (lines : List Number) :
    (lines.foldlM Canvas.draw sheet : Id LineSheet) = lines.foldl add sheet := List.foldlM_pure

theorem lines_foldl_add (sheet : LineSheet) (lines : List Number) :
    (lines.foldl add sheet).lines =
      sheet.lines ++ lines.filter fun l => Number.le 1 l && l.le sheet.lineCount := by
  induction lines generalizing sheet with
  | nil => exact (List.append_nil _).symm
  | cons line lines ih =>
    rw [List.foldl_cons, ih, lines_add, lineCount_add, List.append_assoc, ← List.filter_append]
    rfl

end LineSheet

namespace Session

variable {start s : Session LineSheet} {origin : Role} {line : Number}

/-- What a session on sheets that has not ended shows once the cursor has come to a line. -/
def highlightsAt (s : Session LineSheet) (origin : Role) (line : Number) : Highlights LineSheet :=
  ⟨(s.correlated origin line).foldl LineSheet.add (s.shown origin.other).canvas.wiped,
    s.correlated origin line⟩

theorem take_moved (hlive : s.hasEnded = false) :
    Id.run (s.take (.moved origin line)) = s.withShown origin.other (s.highlightsAt origin line) := by
  show Id.run (s.cursorMoved origin line) = _
  unfold cursorMoved highlightsAt
  rw [if_neg (Bool.eq_false_iff.1 hlive)]
  simp only [LineSheet.foldlM_draw]
  cases origin <;> rfl

theorem take_left (hlive : s.hasEnded = false) :
    Id.run (s.take (.left origin)) =
      s.withShown origin.other ⟨(s.shown origin.other).canvas.wiped, []⟩ := by
  show Id.run (s.cursorLeft origin) = _
  unfold cursorLeft
  rw [if_neg (Bool.eq_false_iff.1 hlive)]
  rfl

theorem take_ended (hlive : s.hasEnded = false) :
    Id.run (s.take .ended) = ⟨s.index, ⟨{ s.source.canvas.wiped with isReleased := true }, []⟩,
      ⟨{ s.generated.canvas.wiped with isReleased := true }, []⟩, true⟩ := by
  show Id.run s.finish = _
  unfold finish
  rw [if_neg (Bool.eq_false_iff.1 hlive)]
  rfl

/-- A session on sheets, some time after it started. -/
structure Continues (start s : Session LineSheet) : Prop where
  index : s.index = start.index
  lineCount : ∀ role, (s.shown role).canvas.lineCount = (start.shown role).canvas.lineCount
  /-- A sheet has those of the lines remembered for it that its document has. -/
  drawn : ∀ role, (s.shown role).canvas.lines =
    (s.shown role).lines.filter fun l => Number.le 1 l && l.le (s.shown role).canvas.lineCount
  /-- Once it has ended nothing is left of it. -/
  finished : s.hasEnded = true → ∀ role, (s.shown role).lines = [] ∧ (s.shown role).canvas.isReleased = true

theorem continues_create (index : LineIndex) (source generated : Number) :
    (create index (LineSheet.blank source) (LineSheet.blank generated)).Continues
      (create index (LineSheet.blank source) (LineSheet.blank generated)) where
  index := rfl
  lineCount _ := rfl
  drawn role := by cases role <;> rfl
  finished hended := nomatch hended

theorem Continues.correlated (h : start.Continues s) (origin : Role) (line : Number) :
    s.correlated origin line = start.correlated origin line := by
  cases origin <;> unfold Session.correlated <;> dsimp only <;> rw [h.index]

theorem Continues.withShown (h : start.Continues s) (hlive : s.hasEnded = false) (role : Role)
    {shown : Highlights LineSheet} (hcount : shown.canvas.lineCount = (s.shown role).canvas.lineCount)
    (hdrawn : shown.canvas.lines =
      shown.lines.filter fun l => Number.le 1 l && l.le (s.shown role).canvas.lineCount) :
    start.Continues (s.withShown role shown) where
  index := (s.index_withShown role shown).trans h.index
  lineCount role' := by
    rcases role.eq_or_eq_other role' with rfl | rfl
    · rw [shown_withShown, hcount, h.lineCount]
    · rw [shown_withShown_other, h.lineCount]
  drawn role' := by
    rcases role.eq_or_eq_other role' with rfl | rfl
    · rw [shown_withShown, hdrawn, hcount]
    · rw [shown_withShown_other, h.drawn]
  finished hended := by
    rw [hasEnded_withShown, hlive] at hended
    nomatch hended

theorem Continues.take (h : start.Continues s) (event : SessionEvent) :
    start.Continues (Id.run (s.take event)) := by
  cases hended : s.hasEnded with
  | true =>
    rw [take_of_hasEnded hended]
    exact h
  | false =>
    cases event with
    | moved origin line =>
      rw [take_moved hended]
      refine h.withShown hended origin.other ?_ ?_
      · exact LineSheet.lineCount_foldl_add _ _
      · exact LineSheet.lines_foldl_add _ _
    | left origin =>
      rw [take_left hended]
      exact h.withShown hended origin.other rfl rfl
    | ended =>
      rw [take_ended hended]
      refine ⟨h.index, fun role => ?_, fun role => ?_, fun _ role => ?_⟩
      · cases role
        · exact h.lineCount .source
        · exact h.lineCount .generated
      · cases role <;> rfl
      · cases role <;> exact ⟨rfl, rfl⟩

theorem Continues.after (h : start.Continues start) (events : List SessionEvent) :
    start.Continues (start.after events) := by
  induction events using List.reverseRecOn with
  | nil => exact h
  | append_singleton events event ih =>
    rw [after_concat]
    exact ih.take event

theorem hasEnded_take (s : Session LineSheet) (event : SessionEvent) :
    (Id.run (s.take event)).hasEnded = (s.hasEnded || event = .ended) := by
  cases hended : s.hasEnded with
  | true =>
    rw [take_of_hasEnded hended]
    exact hended
  | false =>
    cases event with
    | moved origin line =>
      rw [take_moved hended, hasEnded_withShown, hended]
      rfl
    | left origin =>
      rw [take_left hended, hasEnded_withShown, hended]
      rfl
    | ended =>
      rw [take_ended hended]
      rfl

theorem hasEnded_after (start : Session LineSheet) (events : List SessionEvent) :
    (start.after events).hasEnded = (start.hasEnded || decide (.ended ∈ events)) := by
  induction events using List.reverseRecOn with
  | nil => exact (Bool.or_false _).symm
  | append_singleton events event ih =>
    rw [after_concat, hasEnded_take, ih, Bool.or_assoc]
    congr 1
    rw [← Bool.decide_or]
    exact decide_eq_decide.2 (by rw [List.mem_append, List.mem_singleton, eq_comm (a := event)])

theorem isActive_iff (s : Session LineSheet) : s.isActive = true ↔ ∃ role, (s.shown role).lines ≠ [] := by
  have hsome : ∀ l : List Number, (!l.isEmpty) = true ↔ l ≠ [] := fun l => by cases l <;> simp
  unfold isActive
  rw [Bool.or_eq_true, hsome, hsome]
  constructor
  · rintro (h | h)
    · exact ⟨.source, h⟩
    · exact ⟨.generated, h⟩
  · rintro ⟨role, h⟩
    cases role
    · exact .inl h
    · exact .inr h

theorem stateName_eq_active_iff (s : Session LineSheet) :
    s.stateName = "active" ↔ ∃ role, (s.shown role).lines ≠ [] := by
  rw [← isActive_iff]
  unfold stateName
  by_cases h : s.isActive = true
  · rw [if_pos h]
    exact ⟨fun _ => h, fun _ => rfl⟩
  · rw [if_neg h]
    exact ⟨fun hidle => absurd hidle (by decide), fun hactive => absurd hactive h⟩

theorem withShown_shown (s : Session LineSheet) (role : Role) : s.withShown role (s.shown role) = s := by
  cases role <;> rfl

/-- What an event of one document leaves is what was there, with other highlights in the other document. -/
theorem Continues.take_moved_eq (h : start.Continues s) (origin : Role) (line : Number) :
    ∃ shown, Id.run (s.take (.moved origin line)) = s.withShown origin.other shown ∧
      shown.lines = if s.hasEnded then [] else start.correlated origin line := by
  cases hended : s.hasEnded with
  | true =>
    rw [take_of_hasEnded hended]
    exact ⟨s.shown origin.other, (s.withShown_shown _).symm, (h.finished hended _).1⟩
  | false => exact ⟨s.highlightsAt origin line, take_moved hended, h.correlated origin line⟩

theorem Continues.take_left_eq (h : start.Continues s) (origin : Role) :
    ∃ shown, Id.run (s.take (.left origin)) = s.withShown origin.other shown ∧ shown.lines = [] := by
  cases hended : s.hasEnded with
  | true =>
    rw [take_of_hasEnded hended]
    exact ⟨s.shown origin.other, (s.withShown_shown _).symm, (h.finished hended _).1⟩
  | false => exact ⟨_, take_left hended, rfl⟩

/-- Whatever a session on two sheets is told: each sheet has those of the lines remembered for it that its
document has; the session is active when lines are remembered; what comes from one document changes the
other one alone; and from its end on nothing is left, and nothing is done any more on canvases of any
kind. -/
theorem session_history (index : LineIndex) (count : Role → Number) (events : List SessionEvent) :
    let start := create index (LineSheet.blank (count .source)) (LineSheet.blank (count .generated))
    let s := start.after events
    (∀ role, (s.shown role).canvas.lines =
      (s.shown role).lines.filter fun l => Number.le 1 l && l.le (count role)) ∧
    (s.stateName = "active" ↔ ∃ role, (s.shown role).lines ≠ []) ∧
    (∀ origin line, ∃ shown, start.after (events ++ [.moved origin line]) = s.withShown origin.other shown ∧
      shown.lines = if .ended ∈ events then [] else start.correlated origin line) ∧
    (∀ origin, ∃ shown, start.after (events ++ [.left origin]) = s.withShown origin.other shown ∧
      shown.lines = []) ∧
    (.ended ∈ events →
      (∀ role, (s.shown role).lines = [] ∧ (s.shown role).canvas.lines = [] ∧
        (s.shown role).canvas.isReleased = true) ∧
      (∀ later, start.after (events ++ later) = s) ∧
      ∀ {ν : Type} {m : Type → Type} [Monad m] [LawfulMonad m] [Canvas m ν] (t : Session ν) later,
        (t.takeAll (events ++ later) : m (Session ν)) = t.takeAll events) := by
  intro start s
  have hcontinues : start.Continues s := (continues_create index _ _).after events
  have hended : s.hasEnded = decide (.ended ∈ events) := hasEnded_after start events
  have hcount : ∀ role, (s.shown role).canvas.lineCount = count role := by
    intro role
    rw [hcontinues.lineCount]
    cases role <;> rfl
  have hdrawn : ∀ role, (s.shown role).canvas.lines =
      (s.shown role).lines.filter fun l => Number.le 1 l && l.le (count role) := by
    intro role
    rw [hcontinues.drawn, hcount]
  refine ⟨hdrawn, stateName_eq_active_iff s, fun origin line => ?_, fun origin => ?_, fun hmem => ?_⟩
  · obtain ⟨shown, heq, hlines⟩ := hcontinues.take_moved_eq origin line
    rw [hended] at hlines
    exact ⟨shown, (after_concat ..).trans heq, hlines.trans (by simp only [decide_eq_true_eq])⟩
  · obtain ⟨shown, heq, hlines⟩ := hcontinues.take_left_eq origin
    exact ⟨shown, (after_concat ..).trans heq, hlines⟩
  · have hover := hcontinues.finished (hended.trans (decide_eq_true hmem))
    refine ⟨fun role => ⟨(hover role).1, ?_, (hover role).2⟩, fun later => ?_,
      fun t later => t.takeAll_append_of_ended hmem later⟩
    · rw [hdrawn, (hover role).1]
      rfl
    · exact congrArg Id.run (takeAll_append_of_ended (m := Id) start hmem later)

/-- A session between a source and an output of one line each, of which the source names a second one. -/
def narrow : Session LineSheet :=
  create (.ofLines [⟨1, none, some 2⟩, ⟨2, none, some 2⟩]) (.blank 1) (.blank 1)

theorem narrow_session_history :
    (narrow.after [.moved .source 2]).generated.lines = [1, 2] ∧
    (narrow.after [.moved .source 2]).generated.canvas.lines = [1] ∧
    SessionEvent.ended ∈ [.moved .source 2, .ended] ∧
    (∀ role, ((narrow.after [.moved .source 2, .ended]).shown role).lines = [] ∧
      ((narrow.after [.moved .source 2, .ended]).shown role).canvas.lines = [] ∧
      ((narrow.after [.moved .source 2, .ended]).shown role).canvas.isReleased = true) ∧
    (∀ later, narrow.after ([.moved .source 2, .ended] ++ later) = narrow.after [.moved .source 2, .ended]) ∧
    ∀ (t : Session LineSheet) later,
      (t.takeAll ([.moved .source 2, .ended] ++ later) : Id _) = t.takeAll [.moved .source 2, .ended] := by
  have hmem : SessionEvent.ended ∈ [.moved .source 2, .ended] := by decide
  obtain ⟨-, -, -, -, hended⟩ :=
    session_history narrow.index (fun _ => 1) [.moved .source 2, .ended]
  obtain ⟨hover, hlater, hcalls⟩ := hended hmem
  exact ⟨by decide, by decide, hmem, hover, hlater, hcalls⟩

end Session

end AsmLens
