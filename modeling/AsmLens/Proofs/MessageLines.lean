import AsmLens.Proofs.CompilerMessages
import AsmLens.Proofs.Completion
import AsmLens.Proofs.SourceLines

/-!
# The lines that compiler messages are about

A compiler counts the lines of the source that it was sent, and its messages are shown on the lines of the
document that the source was taken from. The source is a block of lines of the document
(`Source.IsBlock`), whatever named it: a range of lines, cut to the lines that there are, a selection, or
neither. So a message that the compiler has for line `k` of the source is on the line of the document that
became this line (`messages_are_on_their_lines`).
-/

namespace AsmLens

open Window

/-! ### Messages of entries -/

namespace Diagnostic

/-- An entry whose tag has the line `line` of the source, counted from one. -/
def IsAbout (entry : Json) (line : Nat) : Prop :=
  1 ≤ line ∧ ∃ tag, entry.field? "tag" = some tag ∧ tag.field? "line" = some (.num (line : Number))

def isTagged (entry : Json) : Bool := ((entry.field? "tag").bind tagLine?).isSome

theorem tagLine?_eq_some_iff {tag : Json} {x : Number} :
    tagLine? tag = some x ↔ ∃ line : Nat, 1 ≤ line ∧ x = (line : Number) ∧ tag.field? "line" = some (.num x) := by
  have hcounts : (x.isInteger && Number.le 1 x) = true ↔ ∃ line : Nat, 1 ≤ line ∧ x = (line : Number) := by
    rw [Bool.and_eq_true]
    constructor
    · rintro ⟨hinteger, hle⟩
      obtain ⟨i, hi⟩ := Option.isSome_iff_exists.1 hinteger
      obtain rfl := Number.of_toInt? hi
      have hpos : (1 : Int) ≤ i := Number.le_intCast_iff.1 hle
      obtain ⟨line, rfl⟩ := Int.eq_ofNat_of_zero_le (a := i) (by omega)
      exact ⟨line, by omega, rfl⟩
    · rintro ⟨line, hline, rfl⟩
      refine ⟨?_, (Number.le_natCast 1 line).trans (decide_eq_true hline)⟩
      show (Number.toInt? ((line : Int) : Number)).isSome = true
      rw [Number.toInt?_intCast]
      rfl
  unfold tagLine?
  rw [Option.filter_eq_some_iff, Json.numberField?_eq_some_iff, hcounts]
  constructor
  · rintro ⟨h, line, hline, hx⟩
    exact ⟨line, hline, hx, h⟩
  · rintro ⟨line, hline, hx, h⟩
    exact ⟨h, line, hline, hx⟩

theorem isTagged_of_ofEntry {offset : Number} {entry : Json} {message : Option Diagnostic}
    (h : ofEntry offset entry = .ok message) : isTagged entry = message.isSome ∧ ∀ d ∈ message,
      ∃ tag line, entry.field? "tag" = some tag ∧ tagLine? tag = some line ∧ ofTag offset line tag = .ok d := by
  unfold ofEntry at h
  unfold isTagged
  split at h
  · nomatch h
  · cases htag : entry.field? "tag" with
    | none =>
      rw [htag] at h
      cases h
      exact ⟨rfl, nofun⟩
    | some tag =>
      rw [htag] at h
      dsimp only at h
      cases hline : tagLine? tag with
      | none =>
        rw [hline] at h
        cases h
        exact ⟨by rw [Option.bind_some, hline]; rfl, nofun⟩
      | some line =>
        rw [hline] at h
        dsimp only at h
        obtain ⟨d, hd, ⟨⟩⟩ := bind_eq_ok_iff.1 h
        refine ⟨by rw [Option.bind_some, hline]; rfl, ?_⟩
        rintro _ ⟨⟩
        exact ⟨tag, line, rfl, hline, hd⟩

theorem forall₂_ofStderr {offset : Number} {entries : List Json} {messages : List Diagnostic}
    (h : ofStderr offset entries = .ok messages) :
    List.Forall₂ (fun entry d => ∃ tag line, entry.field? "tag" = some tag ∧ tagLine? tag = some line ∧
      ofTag offset line tag = .ok d) (entries.filter isTagged) messages := by
  obtain ⟨read, hread, ⟨⟩⟩ := bind_eq_ok_iff.1 h
  refine (forall₂_of_mapM_option (fun entry _ h => (isTagged_of_ofEntry h).1) hread).imp fun entry d hd => ?_
  exact (isTagged_of_ofEntry hd).2 d rfl

/-- A message comes from an entry about a line of a source. If the source has such a line, the message is on the
line of the document that became it, counted from zero. -/
def Lands (lines : List String) (source : Source) (start : Nat) (entry : Json) (d : Diagnostic) : Prop :=
  ∃ line, IsAbout entry line ∧ ∀ text, (Text.lines source.text)[line - 1]? = some text →
    d.line = ((start + (line - 1) : Nat) : Number) ∧ lines[start + (line - 1)]? = some text

/-- The lines of a source and those of its messages are counted from the same line of the document. -/
theorem lands_of_ofStderr {lines : List String} {source : Source} {start : Nat} {entries : List Json}
    {messages : List Diagnostic} (hblock : source.IsBlock lines start) (hcount : lines.length ≤ 2 ^ 53)
    (h : ofStderr (source.range.first - 1) entries = .ok messages) :
    List.Forall₂ (Lands lines source start) (entries.filter isTagged) messages := by
  refine (forall₂_ofStderr h).imp fun entry d hd => ?_
  obtain ⟨tag, x, htag, hx, hd⟩ := hd
  obtain ⟨line, hline, rfl, hfield⟩ := tagLine?_eq_some_iff.1 hx
  refine ⟨line, ⟨hline, tag, htag, hfield⟩, fun text htext => ?_⟩
  have hin := hblock.getElem? htext
  refine ⟨?_, hin⟩
  have hlt : start + (line - 1) < lines.length := (List.getElem?_eq_some_iff.1 hin).1
  have hd : d.line = (line : Number) - 1 + (source.range.first - 1) := by
    obtain ⟨column, -, ⟨⟩⟩ := bind_eq_ok_iff.1 hd
    rfl
  rw [hd, hblock.first, Number.natCast_pred hline (by omega), Number.natCast_pred (by omega) (by omega),
    Number.natCast_add (by omega), Nat.add_sub_cancel, Nat.add_comm]

end Diagnostic

namespace Workbench

variable {run : Compile.Run} {compiler : Compiler} {output : CompileOutput}

/-- The source of a run is a block of lines of a document. Messages come from the tagged entries of an output,
one from each and in order, and are on the lines that the entries are about. -/
def Placed (run : Compile.Run) (output : CompileOutput) (document : Document) (messages : List Diagnostic) : Prop :=
  ∃ start, run.source.IsBlock document.lines start ∧
    List.Forall₂ (Diagnostic.Lands document.lines run.source start)
      (output.stderr.filter Diagnostic.isTagged) messages

theorem placed_of_messages? {document : Document} {selection : Selection} {arguments : List Json}
    {messages : List Diagnostic} (hlength : Text.length16 document.text < 2 ^ 53)
    (hchosen : Source.IsChosen document.lines selection arguments)
    (hsource : Source.ofLines document.lines selection (LineRange.ofArguments arguments) = .ok run.source)
    (hmessages : run.messages? output = some messages) : Placed run output document messages := by
  have hcount : document.lines.length ≤ 2 ^ 53 :=
    Nat.le_trans (Text.length_lines_le document.text) hlength
  have hne : document.lines ≠ [] := Text.lines_ne_nil document.text
  obtain ⟨start, hblock⟩ := Source.isBlock_of_isAmong (fun _ => Text.notMem_of_mem_lines)
    (Source.isAmong_rangeFor hne hcount hchosen) hsource
  refine ⟨start, hblock, Diagnostic.lands_of_ofStderr hblock hcount ?_⟩
  unfold Compile.Run.messages? at hmessages
  cases hread : Diagnostic.ofStderr (run.source.range.first - 1) output.stderr with
  | ok read =>
    rw [hread] at hmessages
    cases hmessages
    rfl
  | error fault =>
    rw [hread] at hmessages
    nomatch hmessages

/-- When an output comes, the messages of its source that are new are on the lines of the document, as it was when
the command was given, that became the lines of the source that they are about. In a calm window all that the
compiler wrote becomes messages, if it can be read. -/
theorem messages_are_on_their_lines {w : Window} (hw : w.Fresh) (acts : List Act) {a : Act}
    (hdelivers : a.Delivers (Workbench.run w acts) run compiler output) :
    ∃ before arguments after n document selection,
      acts = before ++ .invoke Command.compile.id arguments :: after ∧
        activeDocument? (Workbench.run w before).window = some (n, document, selection) ∧
        run.uri = document.uri ∧
        Source.ofLines document.lines selection (LineRange.ofArguments arguments) = .ok run.source ∧
        (Text.length16 document.text < 2 ^ 53 → Source.IsChosen document.lines selection arguments →
          (∀ messages, (Workbench.run w (acts ++ [a])).window.diagnostics.get? run.uri.text = some messages →
            (Workbench.run w acts).window.diagnostics.get? run.uri.text = some messages ∨
              Placed run output document messages) ∧
          ((Workbench.run w acts).window.Calm →
            (∀ entry ∈ output.stderr, ¬ Diagnostic.IsUnreadable entry) →
              ∃ messages, (Workbench.run w (acts ++ [a])).window.diagnostics.get? run.uri.text = some messages ∧
                Placed run output document messages)) := by
  have hvalid := (reachable_run hw acts).valid
  obtain ⟨named, k, language, list, reply, rfl, hrequest, hjob, haccepts⟩ := id hdelivers
  obtain ⟨before, arguments, after, hacts, n, document, selection, hactive, hsource, -, huri, -⟩ :=
    (came_of_mem hw hjob).has_command
  refine ⟨before, arguments, after, n, document, selection, hacts, hactive, huri, hsource,
    fun hlength hchosen => ⟨fun messages hmessages => ?_, fun hcalm hreadable => ?_⟩⟩
  · rw [run_concat] at hmessages
    refine ((hvalid.receives hdelivers).remarks hmessages).imp_right fun hnew => ?_
    exact placed_of_messages? hlength hchosen hsource hnew.2
  · rw [run_concat]
    obtain ⟨messages, hread, hmessages, -⟩ | ⟨fault, hfault, -⟩ := (hvalid.completes hcalm hdelivers).2
    · refine ⟨messages, hmessages, placed_of_messages? hlength hchosen hsource ?_⟩
      show (run.remarks output).toOption = some messages
      rw [hread]
      rfl
    · obtain ⟨entry, hentry, h⟩ := (Diagnostic.fails_ofStderr_iff _ output.stderr).1 ⟨fault, hfault⟩
      exact absurd h (hreadable entry hentry)

/-- The second line of a source is compiled, up to the request for the output. -/
def secondLineActs : List Act := .invoke Command.compile.id [.num 2, .num 2] :: compileActs.drop 1

def sentSource? : Job → Option String
  | .compile run (.compiling _ _ _ _) => some run.source.text
  | _ => none

/-- What a compiler says of the first line of its source is said of the second line of the document. -/
theorem remark_is_on_second_line : ∃ d,
    (Workbench.run sourceWindow (secondLineActs ++ [.step (.reply none remarkReply)])).window.diagnostics.get?
        "file:///main.py" = some [d] ∧
      d.line = 1 ∧ (Text.lines "f = lambda: 0\nf()")[1]? = some "f()" := by
  have hjobs : (Workbench.run sourceWindow secondLineActs).jobs.map outputRequest? = [some 2] := by
    decide +kernel
  have hrequest : (Workbench.run sourceWindow secondLineActs).window.requestFor? none = some 2 := by
    decide +kernel
  have hsent : (Workbench.run sourceWindow secondLineActs).jobs.map sentSource? = [some "f()"] := by
    decide +kernel
  have hcalm : (Workbench.run sourceWindow secondLineActs).window.Calm := by
    have hfailures : (Workbench.run sourceWindow secondLineActs).window.failures = [] := by
      rw [← List.isEmpty_iff]
      decide +kernel
    exact fun call => by rw [hfailures]; rfl
  obtain ⟨run, compiler, hdelivers⟩ := delivers_of_outputRequest? remarkReply hjobs hrequest rfl
  have hsource : run.source.text = "f()" := by
    obtain ⟨_, _, _, _, _, -, -, hjob, -⟩ := id hdelivers
    obtain ⟨job, hjobs, hsent⟩ := List.map_eq_singleton_iff.1 hsent
    rw [hjobs, List.mem_singleton] at hjob
    rw [← hjob] at hsent
    exact Option.some.inj hsent
  obtain ⟨before, arguments, after, n, document, selection, hacts, hactive, huri, -, hplaced⟩ :=
    messages_are_on_their_lines (fresh_ofDocument rfl) secondLineActs hdelivers
  -- The command is the first thing that happens, so the document is that of the window.
  have hsteps : Act.invoke Command.compile.id [.num 2, .num 2] :: List.map .step [_, _, _, _, _] =
    before ++ .invoke Command.compile.id arguments :: after := hacts
  obtain rfl := eq_nil_of_steps hsteps
  obtain ⟨harguments, -⟩ := List.cons.inj hacts
  cases harguments
  cases hactive
  obtain ⟨messages, hmessages, start, -, hlands⟩ :=
    (hplaced (by decide +kernel) (.inl (by decide +kernel))).2 hcalm fun entry hentry h => by
      obtain ⟨_, hfails⟩ := (Diagnostic.fails_ofStderr_iff 0 _).2 ⟨entry, hentry, h⟩
      nomatch hfails
  change List.Forall₂ _ (List.filter _ [_]) messages at hlands
  rw [List.filter_cons_of_pos (by decide +kernel), List.filter_nil] at hlands
  obtain ⟨d, _, ⟨line, ⟨-, tag, htag, hline⟩, hland⟩, hnil, rfl⟩ := List.forall₂_cons_left_iff.1 hlands
  rw [List.forall₂_nil_left_iff.1 hnil, huri] at hmessages
  refine ⟨d, hmessages, ?_, by decide +kernel⟩
  -- The entry is about the one line that the source has.
  cases htag
  have hone : line = 1 := (Number.natCast_inj (Json.num.inj (Option.some.inj hline))).symm
  subst hone
  obtain ⟨hd, hin⟩ := hland "f()" (by rw [hsource]; decide +kernel)
  have hlines : Text.lines "f = lambda: 0\nf()" = ["f = lambda: 0", "f()"] := by decide +kernel
  change (Text.lines "f = lambda: 0\nf()")[start]? = some "f()" at hin
  rw [hlines] at hin
  match start with
  | 0 => exact absurd hin (by decide)
  | 1 => exact hd

end Workbench

end AsmLens
