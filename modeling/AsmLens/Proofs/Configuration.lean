import AsmLens.Proofs.Snapshots

/-!
# The configuration of a run

A command reads the configuration, but every query that its task sends later on is sent under the
configuration in force by then. `Led` follows a task from its command, and `Queries` says which of the queries
are sent by it. So a request of a task is the one that its command would have sent exactly if, by the time it is
sent, the service still has the address and the timeout that it had for the command
(`request_keeps_service_iff`). While a language is chosen, the service may be exchanged
(`compilers_of_other_service`).
-/

namespace AsmLens

open Window

/-- The request that a query is, when it is sent in a window. -/
def Query.requestIn (q : Query) (w : Window) : Request := q.request w.config w.environment

/-- Two windows in which the service has the same address and the same timeout. -/
structure Window.SameService (w w' : Window) : Prop where
  baseUrl : w'.config.baseUrl w'.environment = w.config.baseUrl w.environment
  timeout : w'.config.timeout = w.config.timeout

theorem Query.requestIn_eq_iff (q : Query) {w w' : Window} :
    q.requestIn w' = q.requestIn w ↔ SameService w w' := by
  rw [requestIn, requestIn, request, request, Request.mk.injEq, address, address, String.append_left_inj]
  exact ⟨fun h => ⟨h.2.1, h.2.2.2.2⟩, fun h => ⟨rfl, h.baseUrl, rfl, rfl, h.timeout⟩⟩

namespace Workbench

/-- After the first things have happened the command of a task was given, and after all of a list the task is
there. -/
inductive Led (w : Window) (first : List Act) : List Act → Job → Prop where
  | begins {id : String} {arguments : List Json} {job : Job} (hnew : job ∉ (Workbench.run w first).jobs)
      (hjob : job ∈ (Workbench.run w (first ++ [.invoke id arguments])).jobs) :
      Led w first (first ++ [.invoke id arguments]) job
  | waits {acts : List Act} {a : Act} {job : Job} (h : Led w first acts job)
      (hjob : job ∈ (Workbench.run w (acts ++ [a])).jobs) : Led w first (acts ++ [a]) job
  | goes {acts : List Act} {step : Step} {n : Notice} {job job' : Job} (h : Led w first acts job)
      (hanswered : job.AnsweredBy (Workbench.run w acts).window step n)
      (hnew : job' ∉ (Workbench.run w acts).jobs)
      (hjob : job' ∈ (Workbench.run w (acts ++ [.step step])).jobs) : Led w first (acts ++ [.step step]) job'

/-- After the first things have happened the command of a task was given, and after all of a list something
happens that lets the task send a query. -/
inductive Queries (w : Window) (first : List Act) : List Act → Act → Query → Prop where
  /-- It is the command, which sends the query. -/
  | command {id : String} {arguments : List Json} {q : Query}
      (h : Sends (some q) (Workbench.run w first).window
        (Workbench.run w (first ++ [.invoke id arguments])).window) :
      Queries w first first (.invoke id arguments) q
  /-- It is what the task waited for. -/
  | task {acts : List Act} {step : Step} {n : Notice} {job : Job} {q : Query} (h : Led w first acts job)
      (hanswered : job.AnsweredBy (Workbench.run w acts).window step n) (hq : job.query? n = some q) :
      Queries w first acts (.step step) q

variable {w : Window} {first first' acts : List Act} {a : Act} {job : Job} {q : Query}

/-! ### The command of a task -/

theorem Valid.eq_of_wait? {b : Workbench} (hb : b.Valid) {job job' : Job} (hjob : job ∈ b.jobs)
    (hjob' : job' ∈ b.jobs) (h : job.wait? = job'.wait?) : job = job' := by
  obtain ⟨before, after, hjobs⟩ := List.append_of_mem hjob
  obtain ⟨what, hwait⟩ := Option.isSome_iff_exists.1 (hb.waits job hjob).isSome
  by_contra hne
  have hother : job' ∈ before ++ after := by
    rw [hjobs, List.mem_append, List.mem_cons] at hjob'
    rw [List.mem_append]
    exact hjob'.imp_right fun h => h.resolve_left (Ne.symm hne)
  exact hb.others hjobs hwait job' hother (h ▸ hwait)

theorem Valid.eq_of_answered {b : Workbench} (hb : b.Valid) {job job' : Job} {step : Step} {n n' : Notice}
    (hjob : job ∈ b.jobs) (hjob' : job' ∈ b.jobs) (h : job.AnsweredBy b.window step n)
    (h' : job'.AnsweredBy b.window step n') : job = job' ∧ n = n' := by
  obtain rfl : n = n' := List.singleton_inj.1 (h.1.symm.trans h'.1)
  exact ⟨hb.eq_of_wait? hjob hjob' (h.2.symm.trans h'.2), rfl⟩

theorem Led.mem (h : Led w first acts job) : job ∈ (Workbench.run w acts).jobs := by
  cases h with
  | begins _ hjob => exact hjob
  | waits _ hjob => exact hjob
  | goes _ _ _ hjob => exact hjob

/-- Every task was led to where it is from a command. -/
theorem led_of_mem (hw : w.Fresh) (hjob : job ∈ (Workbench.run w acts).jobs) : ∃ first, Led w first acts job := by
  induction acts using List.reverseRecOn generalizing job with
  | nil => nomatch hjob
  | append_singleton acts a ih =>
    by_cases hold : job ∈ (Workbench.run w acts).jobs
    · obtain ⟨first, hled⟩ := ih hold
      exact ⟨first, .waits hled hjob⟩
    · have hafter := hjob
      rw [run_concat] at hafter
      obtain hmem | ⟨id, arguments, rfl⟩ | ⟨step, n, -, job₀, rfl, hmem, hanswered, -⟩ :=
        (reachable_run hw acts).valid.job_after hafter
      · exact absurd hmem hold
      · exact ⟨acts, .begins hold hjob⟩
      · obtain ⟨first, hled⟩ := ih hmem
        exact ⟨first, .goes hled hanswered hold hjob⟩

theorem Led.concat (h : Led w first (acts ++ [a]) job) : Led w first acts job ∨
    job ∉ (Workbench.run w acts).jobs ∧ ((∃ id arguments, a = .invoke id arguments) ∧ first = acts ∨
      ∃ step n job₀, a = .step step ∧ Led w first acts job₀ ∧
        job₀.AnsweredBy (Workbench.run w acts).window step n) := by
  generalize hacts : acts ++ [a] = acts' at h
  cases h with
  | @begins id arguments _ hnew _ =>
    obtain ⟨rfl, ha⟩ := List.append_inj' hacts rfl
    exact .inr ⟨hnew, .inl ⟨⟨id, arguments, List.singleton_inj.1 ha⟩, rfl⟩⟩
  | waits h _ =>
    obtain ⟨rfl, -⟩ := List.append_inj' hacts rfl
    exact .inl h
  | @goes _ step n job₀ _ h hanswered hnew _ =>
    obtain ⟨rfl, ha⟩ := List.append_inj' hacts rfl
    exact .inr ⟨hnew, .inr ⟨step, n, job₀, List.singleton_inj.1 ha, h, hanswered⟩⟩

theorem Led.has_command (h : Led w first acts job) :
    ∃ id arguments later, acts = first ++ .invoke id arguments :: later := by
  induction h with
  | @begins id arguments => exact ⟨id, arguments, [], rfl⟩
  | @waits acts a _ _ _ ih =>
    obtain ⟨id, arguments, later, rfl⟩ := ih
    exact ⟨id, arguments, later ++ [a], by simp⟩
  | @goes acts step _ _ _ _ _ _ _ ih =>
    obtain ⟨id, arguments, later, rfl⟩ := ih
    exact ⟨id, arguments, later ++ [.step step], by simp⟩

/-! ### What is sent for a command -/

theorem Queries.has_command (h : Queries w first acts a q) :
    ∃ id arguments later, acts ++ [a] = first ++ .invoke id arguments :: later := by
  cases h with
  | @command id arguments => exact ⟨id, arguments, [], rfl⟩
  | @task _ step _ _ _ h _ _ =>
    obtain ⟨id, arguments, later, rfl⟩ := h.has_command
    exact ⟨id, arguments, later ++ [.step step], by simp⟩

theorem Queries.sends (hw : w.Fresh) (h : Queries w first acts a q) :
    Sends (some q) (Workbench.run w acts).window (Workbench.run w (acts ++ [a])).window := by
  cases h with
  | command h => exact h
  | task h hanswered hq =>
    rw [run_concat, ← hq]
    exact (reachable_run hw acts).valid.goes_sends h.mem hanswered

/-- Whatever is sent was sent for a command, by the command itself or by its task later on, and it is the request
that a query is by then. It is the request that the same query would have been for the command exactly if the
service has the same address and the same timeout by then. -/
theorem request_keeps_service_iff (hw : w.Fresh) (hsent : w.sent = []) (acts : List Act) :
    (∀ k request, .request k request ∈ (Workbench.run w acts).window.events →
        ∃ first before a after q, acts = before ++ a :: after ∧ Queries w first before a q ∧
          request = q.requestIn (Workbench.run w before).window) ∧
      ∀ first a q, Queries w first acts a q →
        (∃ id arguments later, acts ++ [a] = first ++ .invoke id arguments :: later) ∧
          (Workbench.run w (acts ++ [a])).window.sent = (Workbench.run w acts).window.sent ++
            [.request (Workbench.run w acts).window.requests.length
              (q.requestIn (Workbench.run w acts).window)] ∧
          (q.requestIn (Workbench.run w acts).window = q.requestIn (Workbench.run w first).window ↔
            SameService (Workbench.run w first).window (Workbench.run w acts).window) := by
  refine ⟨fun k request hevent => ?_, fun first a q h => ⟨h.has_command, h.sends hw, q.requestIn_eq_iff⟩⟩
  have hmem : .request k request ∈ (Workbench.run w acts).window.sent := List.mem_filter.2 ⟨hevent, rfl⟩
  clear hevent
  induction acts using List.reverseRecOn with
  | nil =>
    change _ ∈ (activate w).window.sent at hmem
    rw [sent_activate, hsent] at hmem
    nomatch hmem
  | append_singleton acts a ih =>
    have hvalid := (reachable_run hw acts).valid
    have hearlier : .request k request ∈ (Workbench.run w acts).window.sent →
        ∃ first before a' after q, acts ++ [a] = before ++ a' :: after ∧ Queries w first before a' q ∧
          request = q.requestIn (Workbench.run w before).window := by
      intro hold
      obtain ⟨first, before, a', after, q, rfl, h⟩ := ih hold
      exact ⟨first, before, a', after ++ [a], q, by simp, h⟩
    rw [run_concat] at hmem
    obtain hunsent | ⟨id, arguments, rfl, q, hsends, -⟩ | ⟨step, n, job, rfl, hjob, hanswered, hsends⟩ :=
      hvalid.sends_after a
    · rw [hunsent] at hmem
      exact hearlier hmem
    · obtain hold | ⟨q, rfl, rfl⟩ := hsends.of_mem hmem
      · exact hearlier hold
      · rw [← run_concat] at hsends
        exact ⟨acts, acts, .invoke id arguments, [], q, rfl, .command hsends, rfl⟩
    · obtain hold | ⟨q, hq, rfl⟩ := hsends.of_mem hmem
      · exact hearlier hold
      · obtain ⟨first, hled⟩ := led_of_mem hw hjob
        exact ⟨first, acts, .step step, [], q, rfl, .task hled hanswered hq, rfl⟩

/-! ### A service that is exchanged -/

def languageChoice? : Job → Option (Nat × List String)
  | .compile _ (.choosingLanguage prompt offered) => some (prompt, offered.map (·.id))
  | _ => none

theorem queries_compilers (hw : w.Fresh) {id : String} {arguments : List Json} {language : String} (prompt : Nat)
    (steps : List Step) (hacts : acts = .invoke id arguments :: steps.map .step)
    (hjobs : (Workbench.run w acts).jobs.map languageChoice? = [some (prompt, [language])])
    (hprompt : (Workbench.run w acts).window.promptFor? none = some prompt)
    (hshown : (Workbench.run w acts).window.prompts[prompt]?.map
      (fun p => (p.state, p.accepted (p.selected? [0]))) = some (.shown, .chosen 0)) :
    Queries w [] acts (.step (.pick none [0])) (.compilers language) := by
  obtain ⟨job, hjob, hchoice⟩ := List.map_eq_singleton_iff.1 hjobs
  have hmem : job ∈ (Workbench.run w acts).jobs := hjob ▸ List.mem_cons_self
  obtain ⟨p, hp, hstate⟩ := Option.map_eq_some_iff.1 hshown
  obtain ⟨hstate, hanswer⟩ := Prod.mk.inj hstate
  have hstep := Step.answerPrompt_of_shown (fun p => p.accepted (p.selected? [0])) hprompt hp hstate
  rw [hanswer] at hstep
  obtain ⟨first, hled⟩ := led_of_mem hw hmem
  obtain ⟨id', arguments', later, heq⟩ := hled.has_command
  obtain rfl := eq_nil_of_steps (hacts.symm.trans heq)
  unfold languageChoice? at hchoice
  split at hchoice
  · rename_i run k offered
    obtain ⟨rfl, hoffered⟩ := Prod.mk.inj (Option.some.inj hchoice)
    obtain ⟨l, rfl, rfl⟩ := List.map_eq_singleton_iff.1 hoffered
    exact .task hled ⟨hstep, rfl⟩ rfl
  · nomatch hchoice

/-- The service is the same when a language is chosen, and the compilers are asked for under its address. -/
theorem compilers_of_same_service :
    (Workbench.run sourceWindow (compileActs.take 2 ++ [.step (.pick none [0])])).window.sent =
      (Workbench.run sourceWindow (compileActs.take 2)).window.sent ++
        [.request 1 ((Query.compilers "python").requestIn (Workbench.run sourceWindow []).window)] := by
  have hw : sourceWindow.Fresh := fresh_ofDocument rfl
  have hqueries : Queries sourceWindow [] (compileActs.take 2) (.step (.pick none [0])) (.compilers "python") :=
    queries_compilers hw 0 [_] rfl (by decide +kernel) (by decide +kernel) (by decide +kernel)
  obtain ⟨-, hsent, hiff⟩ := (request_keeps_service_iff hw rfl (compileActs.take 2)).2 _ _ _ hqueries
  have hnumber : (Workbench.run sourceWindow (compileActs.take 2)).window.requests.length = 1 := by
    decide +kernel
  rw [hsent, hnumber, hiff.2 ⟨by decide +kernel, by decide +kernel⟩]

/-- The languages are offered, and then the environment names another service. -/
def exchangedActs : List Act := compileActs.take 2 ++ [.step (.changeEnvironment (some "http://localhost:10240"))]

/-- The language comes from one service, and the compilers for it are asked of the other one. -/
theorem compilers_of_other_service : ¬ ∀ (w : Window) (first acts : List Act) (a : Act) (q : Query), w.Fresh →
    Queries w first acts a q → ∃ k,
      (Workbench.run w (acts ++ [a])).window.sent = (Workbench.run w acts).window.sent ++
        [.request k (q.requestIn (Workbench.run w first).window)] := by
  intro hall
  have hw : sourceWindow.Fresh := fresh_ofDocument rfl
  have hqueries : Queries sourceWindow [] exchangedActs (.step (.pick none [0])) (.compilers "python") :=
    queries_compilers hw 0 [_, _] rfl (by decide +kernel) (by decide +kernel) (by decide +kernel)
  obtain ⟨k, hsent⟩ := hall _ _ _ _ _ hw hqueries
  rw [hqueries.sends hw] at hsent
  have heq : (Query.compilers "python").requestIn _ = (Query.compilers "python").requestIn _ :=
    (Event.request.inj (List.singleton_inj.1 (List.append_cancel_left hsent))).2
  have hbase := (Query.requestIn_eq_iff _).1 heq |>.baseUrl
  revert hbase
  decide +kernel

end Workbench

end AsmLens
