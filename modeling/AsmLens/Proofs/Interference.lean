import AsmLens.Proofs.Provenance
import AsmLens.Proofs.Responses

/-!
# Compilations do not interfere

Two compilations of different documents are given what comes for each of them, in any order between the
two. What is recorded in the end does not depend on this order: the responses of each task decide which
outputs it publishes, and outputs of different documents can be recorded in any order. What is logged, and
the pane that is active in the end, is not recorded and does depend on the order.
-/

namespace AsmLens

open Window

/-- What comes for the first and for the second of two tasks, with the order of each kept. -/
inductive Interleaves : List Response → List Response → List (Response ⊕ Response) → Prop where
  | nil : Interleaves [] [] []
  | first {rs ss : List Response} {l : List (Response ⊕ Response)} (r : Response)
      (h : Interleaves rs ss l) : Interleaves (r :: rs) ss (.inl r :: l)
  | second {rs ss : List Response} {l : List (Response ⊕ Response)} (s : Response)
      (h : Interleaves rs ss l) : Interleaves rs (s :: ss) (.inr s :: l)

theorem interleaves_append (rs ss : List Response) : Interleaves rs ss (rs.map .inl ++ ss.map .inr) := by
  induction rs with
  | nil =>
    induction ss with
    | nil => exact .nil
    | cons s ss ih => exact .second s ih
  | cons r rs ih => exact .first r ih

/-- The run publishes these outputs when these responses come, wherever the program is. -/
inductive Compile.Run.Publishes (run : Run) :
    Option Point → List Response → List (Compiler × CompileOutput) → Prop where
  | nil (point : Option Point) : Publishes run point [] []
  | cons {point point' : Option Point} {r : Response} {rs : List Response}
      {outputs outputs' : List (Compiler × CompileOutput)} (hmoves : run.Moves point r point' outputs)
      (h : Publishes run point' rs outputs') : Publishes run point (r :: rs) (outputs ++ outputs')

theorem Compile.Run.exists_publishes (run : Run) (rs : List Response) (point : Option Point) :
    ∃ outputs, run.Publishes point rs outputs := by
  induction rs generalizing point with
  | nil => exact ⟨[], .nil point⟩
  | cons r rs ih =>
    obtain ⟨point', outputs, hmoves⟩ := run.exists_moves point r
    obtain ⟨outputs', h⟩ := ih point'
    exact ⟨outputs ++ outputs', .cons hmoves h⟩

namespace Workbench

/-- Responses come for one task. -/
def answerAll (b : Workbench) (what : Option Wait) : List Response → Workbench × Option Wait
  | [] => (b, what)
  | r :: rs => (b.answer what r).1.answerAll (b.answer what r).2 rs

/-- Responses come for two tasks, of which the first waits for `first` and the second for `second`. -/
def answerBoth (b : Workbench) (first second : Option Wait) : List (Response ⊕ Response) → Workbench
  | [] => b
  | .inl r :: l => (b.answer first r).1.answerBoth (b.answer first r).2 second l
  | .inr s :: l => (b.answer second s).1.answerBoth first (b.answer second s).2 l

theorem answerBoth_append (b : Workbench) (first second : Option Wait) (rs ss : List Response) :
    b.answerBoth first second (rs.map .inl ++ ss.map .inr) =
      ((b.answerAll first rs).1.answerAll second ss).1 := by
  induction rs generalizing b first with
  | nil =>
    show b.answerBoth first second (ss.map .inr) = (b.answerAll second ss).1
    induction ss generalizing b second with
    | nil => rfl
    | cons s ss ih => exact ih _ _
  | cons r rs ih => exact ih _ _

variable {b : Workbench} {run run' : Compile.Run}

theorem Valid.answerBoth_ledger (huris : run.uri.text ≠ run'.uri.text) {rs ss : List Response}
    {l : List (Response ⊕ Response)} (hl : Interleaves rs ss l) {first second : Option Wait}
    {point point' : Option Compile.Point} {outputs outputs' : List (Compiler × CompileOutput)}
    (hb : b.Valid) (hcalm : b.window.Calm) (hfirst : b.At run first point)
    (hsecond : b.At run' second point') (h : run.Publishes point rs outputs)
    (h' : run'.Publishes point' ss outputs') :
    (b.answerBoth first second l).ledger = (b.ledger.recordAll run outputs).recordAll run' outputs' := by
  have hne : run ≠ run' := fun heq => huris (by rw [heq])
  -- Along the interleaving each run moves as it would alone and the other one stays at its point, so what
  -- each of them has still to publish is the same at every response.
  induction hl generalizing b first second point point' outputs outputs' with
  | nil =>
    cases h
    cases h'
    rfl
  | first r hl ih =>
    cases h with
    | cons hmoves h =>
      obtain ⟨hcalm', hfirst', hledger⟩ := hmoves b first hb hcalm hfirst
      have hsecond' := hb.answer_other (Ne.symm hne) hsecond hfirst r
      have hrest := ih (hb.answer first r) hcalm' hfirst' hsecond' h h'
      rw [hledger] at hrest
      rw [Ledger.recordAll_append]
      exact hrest
  | second s hl ih =>
    cases h' with
    | cons hmoves h' =>
      obtain ⟨hcalm', hsecond', hledger⟩ := hmoves b second hb hcalm hsecond
      have hfirst' := hb.answer_other hne hfirst hsecond s
      have hrest := ih (hb.answer second s) hcalm' hfirst' hsecond' h h'
      -- These outputs were recorded before all of the first run's, and belong after them.
      rw [hledger, Ledger.recordAll_comm (Ne.symm huris)] at hrest
      rw [Ledger.recordAll_append]
      exact hrest

/-- What is recorded of two compilations of different documents depends on what comes for each of them, and
not on the order between the two: it is the same as when one of them is over before the other goes on. -/
theorem compilations_do_not_interfere (hb : b.Reachable) (hcalm : b.window.Calm)
    {stage stage' : Compile.Stage} (hfirst : .compile run stage ∈ b.jobs)
    (hsecond : .compile run' stage' ∈ b.jobs) (huris : run.uri.text ≠ run'.uri.text)
    {first second : Option Wait} (hwait : (Job.compile run stage).wait? = first)
    (hwait' : (Job.compile run' stage').wait? = second) {rs ss : List Response}
    {l : List (Response ⊕ Response)} (hl : Interleaves rs ss l) :
    (∀ l', Interleaves rs ss l' →
        (b.answerBoth first second l).ledger = (b.answerBoth first second l').ledger) ∧
      (b.answerBoth first second l).ledger = ((b.answerAll first rs).1.answerAll second ss).1.ledger := by
  have hat : ∀ {run : Compile.Run} {stage : Compile.Stage}, .compile run stage ∈ b.jobs →
      b.At run (Job.compile run stage).wait? (some (stage.point b.window)) := by
    intro run stage hmem
    obtain ⟨what, hwhat⟩ := Option.isSome_iff_exists.1 (hb.valid.waits _ hmem).isSome
    rw [hwhat]
    exact ⟨stage, hmem, hwhat, rfl⟩
  subst hwait hwait'
  obtain ⟨outputs, h⟩ := run.exists_publishes rs (some (stage.point b.window))
  obtain ⟨outputs', h'⟩ := run'.exists_publishes ss (some (stage'.point b.window))
  have hledger : ∀ l, Interleaves rs ss l →
      (b.answerBoth (Job.compile run stage).wait? (Job.compile run' stage').wait? l).ledger =
        (b.ledger.recordAll run outputs).recordAll run' outputs' := fun l hl =>
    hb.valid.answerBoth_ledger huris hl hcalm (hat hfirst) (hat hsecond) h h'
  refine ⟨fun l' hl' => (hledger l hl).trans (hledger l' hl').symm, ?_⟩
  rw [← answerBoth_append, hledger l hl, hledger _ (interleaves_append rs ss)]

def twoCompilations : Workbench :=
  Workbench.run sourceWindow [.invoke Command.compile.id [],
    .step (.openDocument (.file "/lib.py") "def g(): return 0" "/lib.py"),
    .step (.showDocument (.file "/lib.py") default), .step (.focus (some (.file "/lib.py"))),
    .invoke Command.compile.id []]

/-- What comes for a compilation, and last its output. -/
def compileResponses (output : Reply) : List Response :=
  [.reply (.ok (some (.arr [.obj [("id", .str "python"), ("extensions", .arr [.str ".py"])]]))), .pick [0],
    .reply (.ok (some (.arr [.obj [("id", .str "codon"), ("instructionSet", .str "amd64")]]))), .pick [0],
    .enter none, .reply output]

def retReply : Reply := .ok (some (.obj [("asm", .arr [.obj [("text", .str "ret")]])]))

def alternately (rs ss : List Response) : List (Response ⊕ Response) :=
  (rs.zip ss).flatMap fun r => [.inl r.1, .inr r.2]

def compiled? : Job → Option Uri
  | .compile run _ => some run.uri
  | _ => none

theorem of_compiled? {job : Job} {uri : Uri} (h : compiled? job = some uri) :
    ∃ run stage, job = .compile run stage ∧ run.uri = uri := by
  cases job with
  | compile run stage => exact ⟨run, stage, rfl, Option.some.inj h⟩
  | _ => nomatch h

theorem twoCompilations_alternate : ∃ alternating afterEachOther : Workbench,
    alternating = twoCompilations.answerBoth (some (.request 0)) (some (.request 1))
      (alternately (compileResponses outputReply) (compileResponses retReply)) ∧
    afterEachOther = ((twoCompilations.answerAll (some (.request 0))
      (compileResponses outputReply)).1.answerAll (some (.request 1)) (compileResponses retReply)).1 ∧
    alternating.ledger = afterEachOther.ledger ∧
    alternating.contents.texts.get? (Uri.file "/main.py").generated.text =
      some "RESUME\nLOAD_CONST\nRETURN_VALUE" ∧
    alternating.contents.texts.get? (Uri.file "/lib.py").generated.text = some "ret" := by
  have hjobs : twoCompilations.jobs.map (fun job => (compiled? job, job.wait?)) =
      [(some (.file "/main.py"), some (.request 0)), (some (.file "/lib.py"), some (.request 1))] := by
    decide +kernel
  obtain ⟨job, jobs, hsplit, hjob, hrest⟩ := List.map_eq_cons_iff.1 hjobs
  obtain ⟨job', hsplit', hjob'⟩ := List.map_eq_singleton_iff.1 hrest
  obtain ⟨run, stage, rfl, huri⟩ := of_compiled? (Prod.mk.inj hjob).1
  obtain ⟨run', stage', rfl, huri'⟩ := of_compiled? (Prod.mk.inj hjob').1
  have hreachable : twoCompilations.Reachable := reachable_run (fresh_ofDocument rfl) _
  have hcalm : twoCompilations.window.failures = [] := by
    rw [← List.isEmpty_iff]
    decide +kernel
  have hinterleaves : Interleaves (compileResponses outputReply) (compileResponses retReply)
      (alternately (compileResponses outputReply) (compileResponses retReply)) :=
    .first _ <| .second _ <| .first _ <| .second _ <| .first _ <| .second _ <| .first _ <| .second _ <|
      .first _ <| .second _ <| .first _ <| .second _ .nil
  obtain ⟨-, hledger⟩ := compilations_do_not_interfere hreachable (fun call => by rw [hcalm]; rfl)
    (by rw [hsplit]; exact List.mem_cons_self) (by rw [hsplit, hsplit']; simp)
    (by rw [huri, huri']; decide) (Prod.mk.inj hjob).2 (Prod.mk.inj hjob').2 hinterleaves
  refine ⟨_, _, rfl, rfl, hledger, ?_, ?_⟩
  · decide +kernel
  · decide +kernel

end Workbench

end AsmLens
