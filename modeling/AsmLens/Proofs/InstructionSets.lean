import AsmLens.Proofs.Provenance
import Mathlib.Data.List.Infix

/-!
# Instruction sets of generated documents

The text of a generated document is that of the last output for its address. The instruction set that is
remembered under the address is the one of the compiler that made the output, unless the output could not
be shown: the text is replaced before the document is shown and the user is told, the instruction set only
afterwards. When one of these calls fails, it stays the one of an older output
(`instructionSets_describe_contents`), and then the two need not agree (`instructionSets_fall_behind`).
-/

namespace AsmLens

open Window

namespace Workbench

variable {w : Window} {acts before : List Act} {a : Act} {address : String} {run : Compile.Run}
  {compiler : Compiler} {output : CompileOutput}

/-- What is remembered under an address when an output has come for it. -/
theorem Receives.remembers {b b' : Workbench} (h : Receives run compiler output b b') :
    b'.contents.texts.get? run.uri.generated.text = some (Text.joinLines (output.asm.map (·.text))) ∧
      (b'.instructionSets.get? run.uri.generated.text = compiler.knownSet? ∨
        (∃ call ∈ [HostCall.openDocument, .showDocument, .showInformation],
          (b.window.failures.get? call).isSome) ∧
        b'.instructionSets.get? run.uri.generated.text =
          b.instructionSets.get? run.uri.generated.text) := by
  obtain ⟨w, b₁, jobs, hanswered, -, hpublished, hrecorded, rfl⟩ := h
  refine ⟨?_, ?_⟩
  · show b₁.contents.texts.get? _ = _
    rw [hpublished.contents]
    show (b.contents.texts.put run.uri.generated.text _).get? run.uri.generated.text = _
    rw [Table.get?_put, if_pos rfl]
  · cases hrecorded with
    | stopped hprepared harmed =>
      refine .inr ⟨?_, hprepared.instructionSets _⟩
      rw [← hanswered.failures]
      exact harmed
    | unlinked hprepared =>
      left
      rw [hprepared.instructionSets, setsWith, if_pos rfl]
    | reported hsets =>
      left
      rw [hsets, setsWith, if_pos rfl]

theorem Receives.elsewhere {b b' : Workbench} (h : Receives run compiler output b b')
    (hne : run.uri.generated.text ≠ address) :
    b'.contents.texts.get? address = b.contents.texts.get? address ∧
      b'.instructionSets.get? address = b.instructionSets.get? address := by
  obtain ⟨w, b₁, jobs, -, -, hpublished, hrecorded, rfl⟩ := h
  refine ⟨?_, ?_⟩
  · show b₁.contents.texts.get? _ = _
    rw [hpublished.contents]
    show (b.contents.texts.put run.uri.generated.text _).get? address = _
    rw [Table.get?_put, if_neg hne]
  · cases hrecorded with
    | stopped hprepared => exact hprepared.instructionSets _
    | unlinked hprepared => rw [hprepared.instructionSets, setsWith, if_neg hne]
    | reported hsets => rw [hsets, setsWith, if_neg hne]

/-- Under an address with a text the instruction set of the compiler that made the text is remembered. Only
an output that could not be shown, or not be told of, leaves what was there before it came. -/
theorem instructionSets_describe_contents (hw : w.Fresh) (acts : List Act) {text : String}
    (htext : (Workbench.run w acts).contents.texts.get? address = some text) :
    ∃ before run compiler output, LastOutput w acts address before run compiler output ∧
      text = Text.joinLines (output.asm.map (·.text)) ∧
      ((Workbench.run w acts).instructionSets.get? address = compiler.knownSet? ∨
        (∃ call ∈ [HostCall.openDocument, .showDocument, .showInformation],
          ((Workbench.run w before).window.failures.get? call).isSome) ∧
        (Workbench.run w acts).instructionSets.get? address =
          (Workbench.run w before).instructionSets.get? address) := by
  induction acts using List.reverseRecOn with
  | nil => nomatch htext
  | append_singleton acts a ih =>
    have hvalid := (reachable_run hw acts).valid
    rw [run_concat] at htext ⊢
    by_cases hnow : ∃ run compiler output,
        a.Delivers (Workbench.run w acts) run compiler output ∧ run.uri.generated.text = address
    · obtain ⟨run, compiler, output, hdelivers, rfl⟩ := hnow
      obtain ⟨htext', hset⟩ := (hvalid.receives hdelivers).remembers
      rw [htext] at htext'
      exact ⟨acts, run, compiler, output, lastOutput_now hdelivers rfl, Option.some.inj htext', hset⟩
    · have hnone : ∀ run compiler output, a.Delivers (Workbench.run w acts) run compiler output →
          run.uri.generated.text ≠ address :=
        fun run compiler output hdelivers haddress => hnow ⟨run, compiler, output, hdelivers, haddress⟩
      -- Nothing has come for this address, so nothing has changed under it.
      have hsame : ((Workbench.run w acts).after a).contents.texts.get? address =
            (Workbench.run w acts).contents.texts.get? address ∧
          ((Workbench.run w acts).after a).instructionSets.get? address =
            (Workbench.run w acts).instructionSets.get? address := by
        rcases hvalid.records_after a with hunrecorded | ⟨run, compiler, output, hdelivers⟩
        · rcases hunrecorded.texts address with hforgotten | hsame
          · rw [htext] at hforgotten
            nomatch hforgotten
          · exact hsame
        · exact (hvalid.receives hdelivers).elsewhere (hnone run compiler output hdelivers)
      rw [hsame.1] at htext
      rw [hsame.2]
      obtain ⟨before, run, compiler, output, hlast, hjoined, hset⟩ := ih htext
      exact ⟨before, run, compiler, output, hlast.concat hnone, hjoined, hset⟩

/-- A source is compiled for `amd64`, up to the request for the output. -/
def amd64Acts : List Act :=
  [.invoke Command.compile.id [],
    .step (.reply none (.ok (some (.arr [.obj [("id", .str "python"), ("extensions", .arr [.str ".py"])]])))),
    .step (.pick none [0]),
    .step (.reply none (.ok (some (.arr [.obj [("id", .str "codon"), ("instructionSet", .str "amd64")]])))),
    .step (.pick none [0]),
    .step (.enter none none)]

def generatedAddress : String := (Uri.file "/main.py").generated.text

theorem OutputComes.mem_inits (h : OutputComes w acts before run compiler output) : before ∈ acts.inits := by
  obtain ⟨a, after, rfl, -⟩ := h
  exact (List.mem_inits _ _).2 (List.prefix_append ..)

theorem amd64_is_remembered : ∃ before run compiler output,
    LastOutput sourceWindow (amd64Acts ++ [.step (.reply none outputReply)]) generatedAddress before run
        compiler output ∧
      "RESUME\nLOAD_CONST\nRETURN_VALUE" = Text.joinLines (output.asm.map (·.text)) ∧
      (Workbench.run sourceWindow (amd64Acts ++ [.step (.reply none outputReply)])).instructionSets.get?
        generatedAddress = compiler.knownSet? := by
  have hfresh : sourceWindow.Fresh := fresh_ofDocument rfl
  have hcontents : (Workbench.run sourceWindow (amd64Acts ++
      [.step (.reply none outputReply)])).contents.texts.get? generatedAddress =
        some "RESUME\nLOAD_CONST\nRETURN_VALUE" := by decide +kernel
  obtain ⟨before, run, compiler, output, hlast, htext, hset⟩ :=
    instructionSets_describe_contents hfresh _ hcontents
  have hunarmed : ∀ before ∈ (amd64Acts ++ [Act.step (.reply none outputReply)]).inits,
      ∀ call ∈ [HostCall.openDocument, .showDocument, .showInformation],
        (Workbench.run sourceWindow before).window.failures.get? call = none := by
    decide +kernel
  refine ⟨before, run, compiler, output, hlast, htext, hset.resolve_right ?_⟩
  rintro ⟨⟨call, hcall, harmed⟩, -⟩
  rw [hunarmed before hlast.comes.mem_inits call hcall] at harmed
  nomatch harmed

def compilingSet? : Job → Option (Option String)
  | .compile _ (.compiling _ _ compiler _) => some compiler.knownSet?
  | _ => none

/-- An output for `amd64` comes, but the user cannot be told. -/
def untoldActs : List Act :=
  amd64Acts ++ [.step (.arm .showInformation "no message"), .step (.reply none outputReply)]

/-- The text of an output is there, and its instruction set is not. -/
theorem instructionSets_fall_behind : ¬ ∀ (w : Window) (acts : List Act) (address text : String), w.Fresh →
    (Workbench.run w acts).contents.texts.get? address = some text →
    ∃ before run compiler output, LastOutput w acts address before run compiler output ∧
      (Workbench.run w acts).instructionSets.get? address = compiler.knownSet? := by
  intro hall
  have htext : (Workbench.run sourceWindow untoldActs).contents.texts.get? generatedAddress =
      some "RESUME\nLOAD_CONST\nRETURN_VALUE" := by decide +kernel
  obtain ⟨before, run, compiler, output, hlast, hset⟩ := hall sourceWindow _ _ _ (fresh_ofDocument rfl) htext
  have hnone : (Workbench.run sourceWindow untoldActs).instructionSets.get? generatedAddress = none := by
    decide +kernel
  -- All outputs that are waited for are for `amd64`.
  have hwaiting : ∀ before ∈ untoldActs.inits, ∀ job ∈ (Workbench.run sourceWindow before).jobs,
      compilingSet? job = none ∨ compilingSet? job = some (some "amd64") := by
    decide +kernel
  obtain ⟨a, after, hacts, named, k, language, arguments, reply, -, -, hjob, -⟩ := hlast.comes
  rcases hwaiting before hlast.comes.mem_inits _ hjob with h | h
  · nomatch h
  · rw [hnone, Option.some.inj h] at hset
    nomatch hset

end Workbench

end AsmLens
