import AsmLens.Proofs.Ledger
import AsmLens.Proofs.Outputs

/-!
# What comes for a task

A `Response` comes from outside for one task, whatever the numbers are under which the task waits for it.
`Workbench.answer` brings it, and tells what the task waits for then. As long as no call of the host is
made to fail, the point that a compilation has come to and the response decide to which point it goes on and
which output it publishes (`Compile.Run.exists_moves`), and another compilation stays at its point meanwhile
(`Workbench.Valid.answer_other`).
-/

namespace AsmLens

open Window

/-- What comes from outside for a task. -/
inductive Response where
  | reply (reply : Reply)
  /-- The user accepts its prompt with the items at some positions selected. -/
  | pick (positions : List Int)
  /-- The user accepts its prompt, with a text entered if there is one. -/
  | enter (text : Option String)
  | hide

namespace Response

/-- The step that brings a response to a task that waits for it. A request takes a reply, and a prompt takes
what the user does. -/
def step? : Response → Wait → Option Step
  | .reply r, .request n => some (.reply (some n) r)
  | .pick positions, .prompt n => some (.pick (some n) positions)
  | .enter text, .prompt n => some (.enter (some n) text)
  | .hide, .prompt n => some (.hide (some n))
  | _, _ => none

end Response

namespace Workbench

/-- What a task waits for now, and none did before. -/
def newWait? (b b' : Workbench) : Option Wait :=
  (b'.jobs.filterMap Job.wait?).find? fun what => what ∉ b.jobs.filterMap Job.wait?

/-- A response comes for the task that waits for `what`, with what the task waits for then. A response that
it does not wait for does not come. -/
def answer (b : Workbench) (what : Option Wait) (r : Response) : Workbench × Option Wait :=
  match what.bind r.step? with
  | none => (b, what)
  | some step => ((perform step b).2, b.newWait? (perform step b).2)

/-- The compilation that waits for `what` is at a point, or it is over and waits for nothing. -/
def At (b : Workbench) (run : Compile.Run) (what : Option Wait) (point : Option Compile.Point) : Prop :=
  match what with
  | none => point = none
  | some what => ∃ stage, .compile run stage ∈ b.jobs ∧ (Job.compile run stage).wait? = some what ∧
      point = some (stage.point b.window)

end Workbench

/-! ### How a run goes on -/

namespace Response

def read? : Response → Option (Prompt → Answer)
  | .reply _ => none
  | .pick positions => some fun p => p.accepted (p.selected? positions)
  | .enter text => some fun p => ((text.map p.withText).getD p).accepted none
  | .hide => some fun _ => .nothing

/-- Another wait is as new after the answer as it was before, and the other prompts are as they were. -/
structure Spares (what : Wait) (w w' : Window) : Prop where
  isNew : ∀ other : Wait, other.IsNew w' → other.IsNew w
  prompts : ∀ n, what ≠ .prompt n → w'.prompts[n]? = w.prompts[n]?

variable {r : Response} {w : Window} {step : Step} {n : Nat}

theorem step?_prompt (hstep : r.step? (.prompt n) = some step) :
    ∃ read, r.read? = some read ∧ step.perform = Step.answerPrompt (some n) read := by
  cases r <;> cases hstep <;> exact ⟨_, rfl, rfl⟩

theorem read?_of_step? (hstep : r.step? (.prompt n) = none) : r.read? = none := by
  cases r <;> first | rfl | nomatch hstep

theorem spares_of_same {what : Wait} {w' : Window} (hrequests : w'.requests.length = w.requests.length)
    (hmessages : w'.messages = w.messages) (hlength : w'.prompts.length = w.prompts.length)
    (hprompts : ∀ n, what ≠ .prompt n → w'.prompts[n]? = w.prompts[n]?) : Spares what w w' := by
  refine ⟨fun other hnew => ?_, hprompts⟩
  cases other with
  | request n => exact Nat.le_trans (Nat.le_of_eq hrequests.symm) hnew
  | prompt n => exact Nat.le_trans (Nat.le_of_eq hlength.symm) hnew
  | message n => exact Nat.le_trans (Nat.le_of_eq hmessages.symm) hnew

theorem answerPrompt_spares (n : Nat) (read : Prompt → Answer) (w : Window) :
    Gives (Step.answerPrompt (some n) read) w fun _ w' => Spares (.prompt n) w w' := by
  have hfor : ∀ k, w.promptFor? (some n) = some k → k = n := by
    intro k hk
    unfold promptFor? at hk
    dsimp only at hk
    split at hk
    · exact (Option.some.inj hk).symm
    · nomatch hk
  unfold Step.answerPrompt
  refine .look ?_
  cases hk : w.promptFor? (some n) with
  | none => exact spares_of_same rfl rfl rfl fun _ _ => rfl
  | some k =>
    obtain rfl := hfor k hk
    refine (Step.close_gives k read w).bind fun a w' h => ?_
    obtain ⟨rfl, rfl⟩ | ⟨p, hp, -, rfl, hw⟩ := h
    · exact .pure (spares_of_same rfl rfl rfl fun _ _ => rfl)
    · refine .pure ?_
      rw [hw]
      refine spares_of_same rfl rfl List.length_set fun m hm => ?_
      exact List.getElem?_set_ne fun h => hm (by rw [h])

theorem perform_spares {what : Wait} (hstep : r.step? what = some step) (w : Window) :
    Gives step.perform w fun _ w' => Spares what w w' := by
  cases what with
  | request n =>
    cases r with
    | reply reply =>
      cases hstep
      refine Gives.look ?_
      cases w.requestFor? (some n) with
      | none => exact spares_of_same rfl rfl rfl fun _ _ => rfl
      | some k => exact spares_of_same List.length_set rfl rfl fun _ _ => rfl
    | _ => nomatch hstep
  | prompt n =>
    obtain ⟨read, -, hperform⟩ := step?_prompt hstep
    rw [hperform]
    exact answerPrompt_spares n read w
  | message n => cases r <;> nomatch hstep

end Response

namespace Compile

/-- How a run goes on from a point with a response that it waits for. -/
def Run.resume? (run : Run) (point : Point) (r : Response) : Option (Host Stage) :=
  match r with
  | .reply reply => if point.stage.prompt? = none then some (onReply run point.stage reply) else none
  | r => do return onAnswer run point.stage ((← r.read?) (← point.prompt))

variable {run : Run} {point : Point} {r : Response} {x : Host Stage}

theorem Stage.point_eq {stage : Stage} {w w' : Window} (hwaits : (Job.compile run stage).Waits w)
    (hprompts : ∀ n p, (Job.compile run stage).wait? = some (.prompt n) → w.prompts[n]? = some p →
      w'.prompts[n]? = some p) : stage.point w' = stage.point w := by
  unfold point
  cases hprompt : stage.prompt? with
  | none => rfl
  | some n =>
    have hwait : (Job.compile run stage).wait? = some (.prompt n) := by
      cases stage <;> cases hprompt <;> rfl
    unfold Job.Waits at hwaits
    rw [hwait] at hwaits
    obtain ⟨p, hp, -⟩ := hwaits
    rw [Option.bind_some, Option.bind_some, hp, hprompts n p hwait hp]

theorem Run.resume?_steady (h : run.resume? point r = some x) : Steady x Stage.point := by
  unfold resume? at h
  split at h
  · split at h
    · rename_i hprompt
      cases h
      exact onReply_steady run hprompt _
    · nomatch h
  · obtain ⟨read, -, h⟩ := Option.bind_eq_some_iff.1 h
    obtain ⟨p, -, h⟩ := Option.bind_eq_some_iff.1 h
    cases h
    exact onAnswer_steady run point.stage _

/-- The run waits for a response, and goes on from its point when it comes. -/
def Run.Resumes (run : Run) (r : Response) (stage : Stage) (what : Wait) (w : Window) : Prop :=
  ∃ step n x, r.step? what = some step ∧ (Job.compile run stage).AnsweredBy w step n ∧
    run.resume? (stage.point w) r = some x ∧
    n.go (.compile run stage) = (show Work Job from do Workbench.continueCompile run (← x))

theorem Run.resume?_request {stage : Stage} {n : Nat} {w : Window} (r : Response)
    (hrequest : w.requests[n]? = some true) (hwait : (Job.compile run stage).wait? = some (.request n)) :
    r.step? (.request n) = none ∧ run.resume? (stage.point w) r = none ∨
      run.Resumes r stage (.request n) w := by
  have hprompt : stage.prompt? = none := by cases stage <;> cases hwait <;> rfl
  cases r with
  | reply reply =>
    -- The point has the stage without its number, which the way on does not read.
    have hunnumbered : (stage.point w).stage.prompt? = none := by
      cases stage <;> cases hwait <;> rfl
    have hfor : w.requestFor? (some n) = some n := if_pos hrequest
    refine .inr ⟨_, .replied n reply, _, rfl, ⟨?_, hwait.symm⟩, if_pos hunnumbered, ?_⟩
    · rw [Step.perform_reply reply hfor]
    · show (show Work Job from do Workbench.continueCompile run (← onReply run stage reply)) = _
      rw [← onReply_unnumbered run hprompt]
      rfl
  | _ =>
    refine .inl ⟨rfl, ?_⟩
    unfold Stage.point
    rw [hprompt]
    rfl

theorem Run.resume?_prompt {stage : Stage} {n : Nat} {p : Prompt} {w : Window} (r : Response)
    (hp : w.prompts[n]? = some p) (hshown : p.state = .shown)
    (hwait : (Job.compile run stage).wait? = some (.prompt n)) :
    r.step? (.prompt n) = none ∧ run.resume? (stage.point w) r = none ∨
      run.Resumes r stage (.prompt n) w := by
  have hpoint : (stage.point w).prompt = some p := by
    have hprompt : stage.prompt? = some n := by cases stage <;> cases hwait <;> rfl
    unfold Stage.point
    rw [hprompt]
    exact hp
  have hresume : run.resume? (stage.point w) r =
      r.read?.map fun read => onAnswer run (stage.point w).stage (read p) := by
    cases r with
    | reply reply =>
      have hunnumbered : (stage.point w).stage.prompt? = some 0 := by
        cases stage <;> cases hwait <;> rfl
      show (if _ then _ else _) = _
      rw [if_neg (by rw [hunnumbered]; nofun)]
      rfl
    | _ =>
      show Option.bind _ _ = _
      rw [hpoint]
      rfl
  unfold Run.Resumes
  rw [hresume]
  cases hstep : r.step? (.prompt n) with
  | none =>
    rw [Response.read?_of_step? hstep]
    exact .inl ⟨rfl, rfl⟩
  | some step =>
    obtain ⟨read, hread, hperform⟩ := Response.step?_prompt hstep
    have hfor : w.promptFor? (some n) = some n := if_pos (List.getElem?_eq_some_iff.1 hp).1
    rw [hread]
    refine .inr ⟨step, .answered n (read p), _, rfl, ⟨?_, hwait.symm⟩, rfl, ?_⟩
    · rw [hperform]
      exact Step.answerPrompt_of_shown read hfor hp hshown
    · show (show Work Job from do Workbench.continueCompile run (← onAnswer run stage (read p))) = _
      rw [← onAnswer_unnumbered run stage]
      rfl

theorem Run.resumes_or_not {stage : Stage} {what : Wait} {w : Window} (r : Response)
    (hwaits : (Job.compile run stage).Waits w) (hwait : (Job.compile run stage).wait? = some what) :
    r.step? what = none ∧ run.resume? (stage.point w) r = none ∨ run.Resumes r stage what w := by
  unfold Job.Waits at hwaits
  rw [hwait] at hwaits
  cases what with
  | request n => exact resume?_request r hwaits hwait
  | prompt n =>
    obtain ⟨p, hp, hshown, -⟩ := hwaits
    exact resume?_prompt r hp hshown hwait
  | message n => cases stage <;> nomatch hwait

end Compile

/-! ### What is left of a task -/

namespace Workbench

/-- What is left of a task after a part of it is at a point, or nothing is left, and these outputs were
recorded. -/
structure Resumed (run : Compile.Run) (point : Option Compile.Point)
    (outputs : List (Compiler × CompileOutput)) (b : Workbench) (j : Option Job) (b' : Workbench) : Prop where
  calm : b'.window.Calm
  ledger : b'.ledger = b.ledger.recordAll run outputs
  finished : j = none → point = none
  goesOn : ∀ job ∈ j, ∃ stage, job = .compile run stage ∧ job.wait?.isSome = true ∧
    point = some (stage.point b'.window)

variable {run : Compile.Run} {x : Host Compile.Stage} {b b' : Workbench}
  {outputs : List (Compiler × CompileOutput)}

theorem Resumed.at {point : Option Compile.Point} {j : Option Job} (h : Resumed run point outputs b j b')
    (before after : List Job) :
    At { b' with jobs := before ++ j.toList ++ after } run (j.bind Job.wait?) point := by
  cases j with
  | none => exact h.finished rfl
  | some job =>
    obtain ⟨stage, rfl, hlive, hpoint⟩ := h.goesOn job rfl
    obtain ⟨what, hwait⟩ := Option.isSome_iff_exists.1 hlive
    rw [Option.bind_some, hwait]
    exact ⟨stage, by simp, hwait, hpoint⟩

theorem fault_resumed (fault : Fault) (hcalm : b'.window.Calm)
    (hledger : b'.ledger = b.ledger.recordAll run outputs) :
    Gives (onWindow (reportFault "compile" fault)) b' fun _ b'' => Resumed run none outputs b none b'' := by
  refine (onWindow_gives (reportFault_gives "compile" fault b'.window)).mono fun _ b'' h => ?_
  have hasks := h.1.1.1
  exact ⟨hcalm.asks hasks, (ledger_of_rests h.2 hasks.diagnostics).trans hledger, fun _ => rfl,
    fun _ h => nomatch h⟩

theorem contain_fails (h : Ends x b.window (fun _ _ => False) fun _ w' => Asks b.window w')
    (hcalm : b.window.Calm) :
    Gives (contain "compile" do continueCompile run (← x)) b (Resumed run none [] b) := by
  have hends : Ends (show Work Job from do continueCompile run (← x)) b (fun _ _ => False)
      fun _ b' => Asks b.window b'.window ∧ b.Rests b' :=
    (onHost_ends h).bind (fun _ _ h => h.1.elim) fun _ _ h => h
  refine contain_gives hends (fun _ _ h => h.elim) (fun _ _ h => h.elim) fun fault b' h => ?_
  exact fault_resumed fault (hcalm.asks h.1) (ledger_of_rests h.2 h.1.diagnostics)

theorem contain_publishes {compiler : Compiler} {output : CompileOutput} (hb : b.Wired)
    (hcalm : b.window.Calm)
    (h : Ends x b.window (fun stage w' => stage = .compiled compiler output ∧ Asks b.window w')
      fun _ _ => False) :
    Gives (contain "compile" do continueCompile run (← x)) b (Resumed run none [(compiler, output)] b) := by
  have hends : Ends (show Work Job from do continueCompile run (← x)) b
      (fun job b' => job = .compile run .finished ∧ b'.window.Calm ∧
        b'.ledger = b.ledger.recordAll run [(compiler, output)])
      fun _ b' => b'.window.Calm ∧ b'.ledger = b.ledger.recordAll run [(compiler, output)] := by
    refine (onHost_ends h).bind (fun stage b₁ h₁ => ?_) fun _ _ h => h.1.elim
    obtain ⟨⟨rfl, hasks⟩, hrests⟩ := h₁
    have hledger := ledger_of_rests hrests hasks.diagnostics
    have hpublish := publish_ledger run compiler output (hb.presents hrests hasks.presents) (hcalm.asks hasks)
    rw [hledger] at hpublish
    exact hpublish.bind (fun _ b' h => .pure ⟨rfl, h⟩) fun _ _ h => h
  refine contain_gives hends ?_ ?_ fun fault b' h => fault_resumed fault h.1 h.2
  · rintro job b' ⟨rfl, -⟩ hwaits
    nomatch hwaits
  · rintro job b' ⟨-, hcalm', hledger⟩ -
    exact ⟨hcalm', hledger, fun _ => rfl, fun _ h => nomatch h⟩

theorem contain_waits {point : Compile.Point} (hcalm : b.window.Calm)
    (hpoint : ∀ compiler output, point.stage ≠ .compiled compiler output)
    (h : Ends x b.window (fun stage w' => point = stage.point w' ∧ Asks b.window w') fun _ _ => False) :
    Gives (contain "compile" do continueCompile run (← x)) b
      (Resumed run (if (Job.compile run point.stage).wait?.isSome then some point else none) [] b) := by
  have hends : Ends (show Work Job from do continueCompile run (← x)) b
      (fun job b' => b'.window.Calm ∧ b'.ledger = b.ledger ∧
        ∃ stage, job = .compile run stage ∧ point = stage.point b'.window)
      fun _ _ => False := by
    refine (onHost_ends h).bind (fun stage b₁ h₁ => ?_) fun _ _ h => h.1.elim
    obtain ⟨⟨hstage, hasks⟩, hrests⟩ := h₁
    have hwaits : ∀ compiler output, stage ≠ .compiled compiler output := by
      rintro compiler output rfl
      exact hpoint compiler output (by rw [hstage]; rfl)
    rw [continueCompile_eq run hwaits]
    exact .pure ⟨hcalm.asks hasks, ledger_of_rests hrests hasks.diagnostics, stage, rfl, hstage⟩
  have hwaits : ∀ (stage : Compile.Stage) w, (Job.compile run (stage.point w).stage).wait?.isSome =
      (Job.compile run stage).wait?.isSome := fun stage _ => by cases stage <;> rfl
  refine contain_gives hends ?_ ?_ fun _ _ h => h.elim
  · rintro job b' ⟨hcalm', hledger, stage, rfl, rfl⟩ hlive
    rw [if_pos ((hwaits stage _).trans hlive)]
    refine ⟨hcalm', hledger, nofun, fun job hjob => ?_⟩
    cases hjob
    exact ⟨stage, rfl, hlive, rfl⟩
  · rintro job b' ⟨hcalm', hledger, stage, rfl, rfl⟩ hover
    rw [if_neg]
    · exact ⟨hcalm', hledger, fun _ => rfl, fun _ h => nomatch h⟩
    · rw [hwaits, hover]
      exact nofun

theorem contain_steady (hx : Steady x Compile.Stage.point) (run : Compile.Run) :
    ∃ point outputs, ∀ b : Workbench, b.Wired → b.window.Calm →
      Gives (contain "compile" do continueCompile run (← x)) b (Resumed run point outputs b) := by
  obtain ⟨seen, hx⟩ := hx
  cases seen with
  | none =>
    refine ⟨none, [], fun b _ hcalm => contain_fails ?_ hcalm⟩
    exact (hx b.window hcalm).mono (fun _ _ h => nomatch h.1) fun _ _ h => h.2
  | some point =>
    by_cases hcompiled : ∃ compiler output, point.stage = .compiled compiler output
    · obtain ⟨compiler, output, hstage⟩ := hcompiled
      refine ⟨none, [(compiler, output)], fun b hb hcalm => contain_publishes hb hcalm ?_⟩
      refine (hx b.window hcalm).mono (fun stage w' h => ⟨?_, h.2⟩) fun _ _ h => nomatch h.1
      rw [Option.some.inj h.1] at hstage
      cases stage <;> first | exact hstage | nomatch hstage
    · have hpoint : ∀ compiler output, point.stage ≠ .compiled compiler output :=
        fun compiler output h => hcompiled ⟨compiler, output, h⟩
      refine ⟨_, [], fun b _ hcalm => contain_waits hcalm hpoint ?_⟩
      exact (hx b.window hcalm).mono (fun _ _ h => ⟨Option.some.inj h.1, h.2⟩) fun _ _ h => nomatch h.1

/-! ### A response comes -/

theorem At.of_none {what : Option Wait} (h : b.At run what none) : what = none := by
  cases what with
  | none => rfl
  | some what =>
    obtain ⟨stage, -, -, hpoint⟩ := h
    nomatch hpoint

theorem At.of_some {what : Option Wait} {point : Compile.Point} (h : b.At run what (some point)) :
    ∃ stage what', what = some what' ∧ .compile run stage ∈ b.jobs ∧
      (Job.compile run stage).wait? = some what' ∧ point = stage.point b.window := by
  cases what with
  | none => nomatch h
  | some what =>
    obtain ⟨stage, hmem, hwait, hpoint⟩ := h
    exact ⟨stage, what, rfl, hmem, hwait, Option.some.inj hpoint⟩

variable {what : Wait} {r : Response}

theorem Valid.answer (hb : b.Valid) (what : Option Wait) (r : Response) : (b.answer what r).1.Valid := by
  unfold Workbench.answer
  split
  · exact hb
  · exact hb.perform _

theorem answer_of_step?_eq_none (h : r.step? what = none) : b.answer (some what) r = (b, some what) := by
  unfold Workbench.answer
  rw [Option.bind_some, h]

theorem newWait?_eq {before after : List Job} {j : Option Job} (hjobs : b'.jobs = before ++ j.toList ++ after)
    (hothers : ∀ k ∈ before ++ after, k ∈ b.jobs)
    (hnew : ∀ job ∈ j, ∃ what, job.wait? = some what ∧ ∀ k ∈ b.jobs, k.wait? ≠ some what) :
    b.newWait? b' = j.bind Job.wait? := by
  -- The search passes over the other tasks, as what they wait for is not new.
  have hold : ∀ l : List Job, (∀ k ∈ l, k ∈ b.jobs) →
      (l.filterMap Job.wait?).find? (fun what => what ∉ b.jobs.filterMap Job.wait?) = none := by
    intro l hl
    rw [List.find?_eq_none]
    intro what hwhat
    obtain ⟨k, hk, hwait⟩ := List.mem_filterMap.1 hwhat
    have hmem : what ∈ b.jobs.filterMap Job.wait? := List.mem_filterMap.2 ⟨k, hl k hk, hwait⟩
    simpa using hmem
  unfold newWait?
  rw [hjobs, List.filterMap_append, List.filterMap_append, List.find?_append, List.find?_append,
    hold before fun k hk => hothers k (List.mem_append_left _ hk),
    hold after fun k hk => hothers k (List.mem_append_right _ hk), Option.none_or, Option.or_none]
  cases j with
  | none => rfl
  | some job =>
    obtain ⟨what, hwait, hfree⟩ := hnew job rfl
    have hnot : what ∉ b.jobs.filterMap Job.wait? := by
      intro hmem
      obtain ⟨k, hk, hkwait⟩ := List.mem_filterMap.1 hmem
      exact hfree k hk hkwait
    show (List.filterMap Job.wait? [job]).find? _ = job.wait?
    rw [List.filterMap_cons_some hwait, List.find?_cons_of_pos, hwait]
    exact decide_eq_true hnot

theorem Valid.answer_split {stage : Compile.Stage} {step : Step} {n : Notice} (hb : b.Valid)
    (hmem : .compile run stage ∈ b.jobs) (hwait : (Job.compile run stage).wait? = some what)
    (hstep : r.step? what = some step) (hanswered : (Job.compile run stage).AnsweredBy b.window step n) :
    ∃ before after w, b.jobs = before ++ .compile run stage :: after ∧ Wired { b with window := w } ∧
      Step.Answered b.window w ∧ Response.Spares what b.window w ∧
      let c := contain "compile" (n.go (.compile run stage)) { b with window := w }
      b.answer (some what) r =
          ({ c.2 with jobs := before ++ c.1.toList ++ after }, c.1.bind Job.wait?) ∧
        Grows w c.2.window := by
  obtain ⟨before, after, hjobs⟩ := List.append_of_mem hmem
  obtain ⟨w, what', hw, hwait', hn, hsame, hleaves, hperform⟩ := hb.answered hjobs hanswered
  obtain rfl : what = what' := Option.some.inj (hwait.symm.trans hwait')
  have hwired := hb.toWired.leaves hleaves
  have hspares := Response.perform_spares hstep b.window
  unfold Gives at hspares
  rw [hw] at hspares
  obtain ⟨hwent, hbegins⟩ := contain_goes hn hwait hwired
  refine ⟨before, after, w, hjobs, hwired, hsame, hspares, ?_, hwent.grows⟩
  unfold Workbench.answer
  rw [Option.bind_some, hstep]
  dsimp only
  rw [hperform]
  refine Prod.ext rfl (newWait?_eq rfl (fun k hk => ?_) fun job hjob => ?_)
  · rw [hjobs]
    exact (List.sublist_cons_self _ after).append_left before |>.subset hk
  · obtain ⟨what', hwait'⟩ := Option.isSome_iff_exists.1 (hbegins job hjob).1.isSome
    refine ⟨what', hwait', fun k hk hkwait => ?_⟩
    -- What the task waits for now was new in `w`, hence also before the answer, when `k` waited.
    have hnew := (hbegins job hjob).2 what' hwait'
    exact (hb.waits k hk).not_new hkwait (hspares.isNew what' hnew)

/-- Tasks of different runs wait for different things, and one stays at its point when the other goes on. -/
theorem Valid.answer_other {run' : Compile.Run} {what what' : Option Wait}
    {point point' : Option Compile.Point} (hb : b.Valid) (hne : run ≠ run') (h : b.At run what point)
    (h' : b.At run' what' point') (r : Response) : (b.answer what' r).1.At run what point := by
  cases what with
  | none => exact h
  | some what =>
    cases what' with
    | none => exact h
    | some what' =>
      obtain ⟨stage, hmem, hwait, rfl⟩ := h
      obtain ⟨stage', hmem', hwait', -⟩ := h'
      obtain ⟨hstep, -⟩ | ⟨step, n, x, hstep, hanswered, -⟩ :=
        Compile.Run.resumes_or_not r (hb.waits _ hmem') hwait'
      · rw [answer_of_step?_eq_none hstep]
        exact ⟨stage, hmem, hwait, rfl⟩
      · obtain ⟨before, after, w, hjobs, -, -, hspares, hanswer, hgrows⟩ :=
          hb.answer_split hmem' hwait' hstep hanswered
        rw [hanswer]
        -- The runs differ, so this one is beside the task that goes on.
        have hin : .compile run stage ∈ before ++ after := by
          have hin := hmem
          rw [hjobs, List.mem_append, List.mem_cons] at hin
          rcases hin with hin | heq | hin
          · exact List.mem_append_left _ hin
          · exact absurd (Job.compile.inj heq).1 hne
          · exact List.mem_append_right _ hin
        have hother := hb.others hjobs hwait' _ hin
        refine ⟨stage, ?_, hwait, ?_⟩
        · rw [List.append_assoc, List.mem_append, List.mem_append]
          exact (List.mem_append.1 hin).imp_right .inr
        · refine congrArg some (Compile.Stage.point_eq (hb.waits _ hmem) fun m p hm hp => ?_).symm
          refine Job.getElem?_of_prefix hgrows.prompts ?_
          rw [hspares.prompts m fun h => hother (h ▸ hm)]
          exact hp

end Workbench

namespace Compile

/-- Wherever the program is, a run goes on with a response from one point to the other, and these outputs are
recorded. -/
def Run.Moves (run : Run) (point : Option Point) (r : Response) (point' : Option Point)
    (outputs : List (Compiler × CompileOutput)) : Prop :=
  ∀ (b : Workbench) (what : Option Wait), b.Valid → b.window.Calm → b.At run what point →
    (b.answer what r).1.window.Calm ∧ (b.answer what r).1.At run (b.answer what r).2 point' ∧
      (b.answer what r).1.ledger = b.ledger.recordAll run outputs

variable {run : Run} {point : Point} {r : Response} {x : Host Stage}

theorem Run.moves_of_none (hresume : run.resume? point r = none) :
    run.Moves (some point) r (some point) [] := by
  intro b what hb hcalm hat
  obtain ⟨stage, what, rfl, hmem, hwait, rfl⟩ := hat.of_some
  obtain ⟨hstep, -⟩ | ⟨-, -, x, -, -, hx, -⟩ := Run.resumes_or_not r (hb.waits _ hmem) hwait
  · rw [Workbench.answer_of_step?_eq_none hstep]
    exact ⟨hcalm, hat, rfl⟩
  · rw [hresume] at hx
    nomatch hx

theorem Run.moves_of_some {point' : Option Point} {outputs : List (Compiler × CompileOutput)}
    (hresume : run.resume? point r = some x)
    (hresumed : ∀ b : Workbench, b.Wired → b.window.Calm →
      Gives (Workbench.contain "compile" do Workbench.continueCompile run (← x)) b
        (Workbench.Resumed run point' outputs b)) :
    run.Moves (some point) r point' outputs := by
  intro b what hb hcalm hat
  obtain ⟨stage, what, rfl, hmem, hwait, rfl⟩ := hat.of_some
  obtain ⟨-, hnone⟩ | ⟨step, n, x', hstep, hanswered, hx', hgo⟩ :=
    Run.resumes_or_not r (hb.waits _ hmem) hwait
  · rw [hresume] at hnone
    nomatch hnone
  · cases hresume.symm.trans hx'
    obtain ⟨before, after, w, hjobs, hwired, hsame, -, hanswer, -⟩ :=
      hb.answer_split hmem hwait hstep hanswered
    rw [hgo] at hanswer
    have hresumed := hresumed { b with window := w } hwired fun call => hsame.failures ▸ hcalm call
    have hledger : Workbench.ledger { b with window := w } = b.ledger :=
      Workbench.ledger_of_rests rfl hsame.diagnostics
    rw [hanswer]
    exact ⟨hresumed.calm, hresumed.at before after, hresumed.ledger.trans (by rw [hledger])⟩

/-- The point of a run and the response decide what comes of it. -/
theorem Run.exists_moves (run : Run) (point : Option Point) (r : Response) :
    ∃ point' outputs, run.Moves point r point' outputs := by
  cases point with
  | none =>
    refine ⟨none, [], fun b what hb hcalm hat => ?_⟩
    rw [hat.of_none]
    exact ⟨hcalm, rfl, rfl⟩
  | some point =>
    cases hresume : run.resume? point r with
    | none => exact ⟨some point, [], moves_of_none hresume⟩
    | some x =>
      obtain ⟨point', outputs, hresumed⟩ := Workbench.contain_steady (resume?_steady hresume) run
      exact ⟨point', outputs, moves_of_some hresume hresumed⟩

end Compile

end AsmLens
