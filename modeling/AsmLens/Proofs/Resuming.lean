import AsmLens.Proofs.Answering
import AsmLens.Proofs.Provenance

/-!
# Tasks that prompts resume

`Workbench.outcomes` are all answers that the user gives to a prompt, in order, and `Workbench.resumed` the tasks
that go on with one. Of a prompt that was made there is one task, the one that posed it, that ever goes on with an
answer, and it does so with the first one (`Workbench.Asked`).
-/

namespace AsmLens

open Window

namespace Workbench

/-- The answers that the user has given to the prompt with a number, in order. -/
def outcomes (w : Window) (acts : List Act) (n : Nat) : List Answer :=
  trace (fun b a => (a.outcome? n b).toList) (activate w) acts

/-- The tasks that went on with an answer to the prompt with a number, and their answers, in order. -/
def resumed (w : Window) (acts : List Act) (n : Nat) : List (Job × Answer) :=
  trace (fun b a => a.resumes n b) (activate w) acts

section run

variable {w : Window}

theorem outcomes_concat (w : Window) (acts : List Act) (a : Act) (n : Nat) :
    outcomes w (acts ++ [a]) n = outcomes w acts n ++ (a.outcome? n (run w acts)).toList := trace_concat w acts a

theorem resumed_concat (w : Window) (acts : List Act) (a : Act) (n : Nat) :
    resumed w (acts ++ [a]) n = resumed w acts n ++ a.resumes n (run w acts) := trace_concat w acts a

theorem activate_unprompted (w : Window) : Unprompted w (activate w).window :=
  activate_within (log_framed (R := Unprompted)) (fun _ => emit_untouched rfl) w

variable (hw : w.Fresh)

include hw

theorem activate_prompts : (activate w).window.prompts = [] := (activate_unprompted w).prompts.trans hw.prompts

theorem attended_run (acts : List Act) : Attended (run w acts).window (run w acts).jobs := by
  induction acts using List.reverseRecOn with
  | nil =>
    have hnone := activate_prompts hw
    exact ⟨fun p hp => (by rw [run, List.foldl_nil, hnone] at hp; cases hp),
      fun n p hp => (by rw [run, List.foldl_nil, hnone] at hp; cases hp)⟩
  | append_singleton acts a ih =>
    rw [run_concat]
    exact ((reachable_run hw acts).valid.turn ih a).attended ih

theorem turn_run (acts : List Act) (a : Act) : (run w acts).Turn a :=
  (reachable_run hw acts).valid.turn (attended_run hw acts) a

theorem chronicled_run (hprompted : w.prompted = []) (acts : List Act) : (run w acts).window.Chronicled := by
  induction acts using List.reverseRecOn with
  | nil =>
    have hnone := activate_prompts hw
    refine ⟨fun n p hp => (by rw [run, List.foldl_nil, hnone] at hp; cases hp), fun n _ => ?_⟩
    have hprompted' : (activate w).window.prompted = [] := Eq.trans (activate_unprompted w).keeps hprompted
    show (activate w).window.about n = []
    rw [about_eq, hprompted', List.filter_nil]
  | append_singleton acts a ih =>
    rw [run_concat]
    exact (turn_run hw acts a).chronicled ih

theorem outcomes_eq_nil_iff (acts : List Act) (n : Nat) :
    outcomes w acts n = [] ↔ ¬ (run w acts).window.Closed n := by
  induction acts using List.reverseRecOn with
  | nil =>
    refine iff_of_true rfl fun hclosed => ?_
    obtain ⟨p, hp, -⟩ := Option.map_eq_some_iff.1 hclosed
    rw [run, List.foldl_nil, activate_prompts hw] at hp
    cases hp
  | append_singleton acts a ih =>
    rw [outcomes_concat, run_concat, List.append_eq_nil_iff, Option.toList_eq_nil_iff, ih]
    cases turn_run hw acts a with
    | answered houtcome _ hprompt _ _ _ _ _ hposes =>
      rw [hposes.closed_iff, dismiss_closed_iff hprompt, not_or, and_comm, houtcome]
      simp
    | unanswered houtcome _ _ _ _ hposes =>
      rw [hposes.closed_iff]
      refine and_iff_left_of_imp fun hopen => Option.not_isSome_iff_eq_none.1 fun hsome => ?_
      exact hopen (houtcome n hsome)

theorem resumed_of_length_le (acts : List Act) {n : Nat} (hn : (run w acts).window.prompts.length ≤ n) :
    resumed w acts n = [] := by
  induction acts using List.reverseRecOn with
  | nil => rfl
  | append_singleton acts a ih =>
    rw [run_concat] at hn
    have hturn := turn_run hw acts a
    rw [resumed_concat, ih (Nat.le_trans hturn.length_le hn),
      resumes_of_no_answer (hturn.answers_eq_nil (Nat.le_trans hturn.length_le hn)), List.append_nil]

/-- What came of the prompt with a number: the task posed it, alone, and is the only one that went on with an
answer to it, which is the first one that was given. -/
structure Asked (w : Window) (acts : List Act) (n : Nat) (job : Job) : Prop where
  posed : ∃ before a rest, acts = before ++ a :: rest ∧ (run w before).window.prompts.length = n ∧
    job ∈ (run w (before ++ [a])).jobs ∧ ∀ k ∈ (run w (before ++ [a])).jobs, k = job ∨ k ∈ (run w before).jobs
  waits : job.prompt? = some n
  awaits : outcomes w acts n = [] → job ∈ (run w acts).jobs
  resumed : resumed w acts n = (outcomes w acts n).head?.toList.map (job, ·)

omit hw in
theorem Asked.concat {acts : List Act} {n : Nat} {job : Job} (h : Asked w acts n job) (a : Act)
    (hawaits : outcomes w (acts ++ [a]) n = [] → job ∈ (run w (acts ++ [a])).jobs)
    (hresumed : Workbench.resumed w (acts ++ [a]) n = (outcomes w (acts ++ [a]) n).head?.toList.map (job, ·)) :
    Asked w (acts ++ [a]) n job := by
  obtain ⟨before, a', rest, rfl, hposed⟩ := h.posed
  exact ⟨⟨before, a', rest ++ [a], by simp, hposed⟩, h.waits, hawaits, hresumed⟩

theorem exists_asked {acts : List Act} {a : Act} {n : Nat} {before after : List Job} {j : Option Job} {w₁ : Window}
    (hlength : w₁.prompts.length = (run w acts).window.prompts.length)
    (hposes : Poses (j.bind Job.prompt?) w₁ ((run w acts).after a).window)
    (hold : (run w acts).window.prompts.length ≤ n) (hn : n < ((run w acts).after a).window.prompts.length)
    (hjobs : ∀ k ∈ before ++ after, k ∈ (run w acts).jobs)
    (hafter : ((run w acts).after a).jobs = before ++ j.toList ++ after)
    (houtcomes : outcomes w (acts ++ [a]) n = []) : ∃ job, Asked w (acts ++ [a]) n job := by
  obtain ⟨p, hp⟩ : ∃ p, ((run w acts).after a).window.prompts[n]? = some p := ⟨_, List.getElem?_eq_getElem hn⟩
  rcases hposes.of_getElem? hp with hp | ⟨hlast, hj, -⟩
  · have hlt := (List.getElem?_eq_some_iff.1 hp).1
    omega
  · obtain ⟨job, rfl, hwaits⟩ := Option.bind_eq_some_iff.1 hj
    have hmem : job ∈ (run w (acts ++ [a])).jobs := by
      rw [run_concat, hafter]
      simp
    refine ⟨job, ⟨acts, a, [], rfl, hlength ▸ hlast.symm, hmem, fun k hk => ?_⟩, hwaits, fun _ => hmem, ?_⟩
    · rw [run_concat, hafter] at hk
      simp only [List.mem_append, Option.mem_toList, Option.some.injEq] at hk
      rcases hk with (hk | hk) | hk
      · exact .inr (hjobs k (List.mem_append_left _ hk))
      · exact .inl hk.symm
      · exact .inr (hjobs k (List.mem_append_right _ hk))
    · rw [houtcomes, resumed_concat, resumed_of_length_le hw acts hold,
        resumes_of_no_answer ((turn_run hw acts a).answers_eq_nil hold)]
      rfl

omit hw in
theorem Asked.stays {acts : List Act} {a : Act} {n : Nat} {job : Job} {before after : List Job} {i j : Option Job}
    (h : Asked w acts n job) (hjobs : (run w acts).jobs = before ++ i.toList ++ after)
    (hafter : ((run w acts).after a).jobs = before ++ j.toList ++ after) (hne : i ≠ some job)
    (hnil : outcomes w acts n = []) : job ∈ (run w (acts ++ [a])).jobs := by
  have hmem := h.awaits hnil
  rw [hjobs] at hmem
  rw [run_concat, hafter]
  simp only [List.mem_append, Option.mem_toList] at hmem ⊢
  exact hmem.imp_left fun hmem => .inl (hmem.resolve_right hne)

/-- A prompt that was there before resumes the task that posed it, if it was not answered before. -/
theorem Asked.after {acts : List Act} {n : Nat} {job : Job} (h : Asked w acts n job) (a : Act) :
    Asked w (acts ++ [a]) n job := by
  cases turn_run hw acts a with
  | @answered k p answer before after job' j houtcome hanswers hprompt hshown hjobs hwaits _ hafter _ =>
    by_cases hk : n = k
    · subst hk
      have hnil : outcomes w acts n = [] :=
        (outcomes_eq_nil_iff hw acts n).2 (not_closed_of_getElem? hprompt hshown)
      have hvalid := (reachable_run hw acts).valid
      obtain rfl : job = job' := hvalid.eq_of_prompt? hjobs hwaits (h.awaits hnil) h.waits
      have hresumes := hvalid.resumes_of_answer hjobs hwaits (hanswers n)
      rw [if_pos rfl] at hresumes
      refine h.concat a (fun hnil' => ?_) ?_
      · rw [outcomes_concat, houtcome, if_pos rfl] at hnil'
        exact absurd (List.append_eq_nil_iff.1 hnil').2 (List.cons_ne_nil _ _)
      · rw [resumed_concat, h.resumed, outcomes_concat, hnil, hresumes, houtcome, if_pos rfl]
        rfl
    · have hsame : outcomes w (acts ++ [a]) n = outcomes w acts n := by
        rw [outcomes_concat, houtcome, if_neg hk, Option.toList_none, List.append_nil]
      have hsplit : (run w acts).jobs = before ++ (some job').toList ++ after := by simp [hjobs]
      refine h.concat a (fun hnil => h.stays hsplit hafter ?_ (hsame ▸ hnil)) ?_
      · rintro ⟨⟩
        exact hk (Option.some.inj (h.waits.symm.trans hwaits))
      · rw [resumed_concat, hsame, resumes_of_no_answer (by rw [hanswers, if_neg hk]), List.append_nil, h.resumed]
  | @unanswered before after i j houtcome hanswers hjobs hwaits hafter _ =>
    have hne : i ≠ some job := by
      rintro rfl
      exact nomatch h.waits.symm.trans hwaits
    refine h.concat a (fun hnil => ?_) ?_
    · rw [outcomes_concat, List.append_eq_nil_iff] at hnil
      exact h.stays hjobs hafter hne hnil.1
    · rw [resumed_concat, resumes_of_no_answer (hanswers n), List.append_nil, h.resumed, outcomes_concat]
      cases hanswer : a.outcome? n (run w acts) with
      | none => rw [Option.toList_none, List.append_nil]
      | some answer =>
        -- An answer to a prompt that is closed is not the first one.
        have hclosed := houtcome n (by rw [hanswer]; rfl)
        have hne : outcomes w acts n ≠ [] := fun hnil => (outcomes_eq_nil_iff hw acts n).1 hnil hclosed
        rw [List.head?_append_of_ne_nil _ hne]

theorem asked_run (acts : List Act) {n : Nat} (hn : n < (run w acts).window.prompts.length) :
    ∃ job, Asked w acts n job := by
  induction acts using List.reverseRecOn with
  | nil =>
    rw [run, List.foldl_nil, activate_prompts hw] at hn
    exact absurd hn (Nat.not_lt_zero n)
  | append_singleton acts a ih =>
    rw [run_concat] at hn
    by_cases hold : n < (run w acts).window.prompts.length
    · obtain ⟨job, hasked⟩ := ih hold
      exact ⟨job, hasked.after hw a⟩
    · have hold := Nat.le_of_not_lt hold
      have hnone : ¬ (run w acts).window.Closed n := by
        rw [Closed, List.getElem?_eq_none hold]
        intro hclosed
        cases hclosed
      have hnil := (outcomes_eq_nil_iff hw acts n).2 hnone
      cases turn_run hw acts a with
      | answered houtcome _ hprompt _ hjobs _ _ hafter hposes =>
        have hlt := (List.getElem?_eq_some_iff.1 hprompt).1
        refine exists_asked hw (dismiss_length ..) hposes hold hn (fun k hk => ?_) hafter ?_
        · rw [hjobs]
          exact (List.sublist_cons_self _ _).append_left _ |>.subset hk
        · rw [outcomes_concat, hnil, houtcome, if_neg (by omega)]
          rfl
      | unanswered houtcome _ hjobs _ hafter hposes =>
        refine exists_asked hw rfl hposes hold hn (fun k hk => ?_) hafter ?_
        · rw [hjobs, List.append_assoc]
          exact (List.sublist_append_right _ _).append_left _ |>.subset hk
        · rw [outcomes_concat, hnil, Option.not_isSome_iff_eq_none.1 fun hsome => hnone (houtcome n hsome)]
          rfl

theorem resumes_run (acts : List Act) {a : Act} {n : Nat} {job : Job} {answer : Answer}
    (h : (job, answer) ∈ a.resumes n (run w acts)) : (run w acts).Resumes a n job answer := by
  cases turn_run hw acts a with
  | @answered k _ _ _ _ _ _ _ hanswers _ _ hjobs hwaits hresumes _ _ =>
    by_cases hk : n = k
    · subst hk
      rw [(reachable_run hw acts).valid.resumes_of_answer hjobs hwaits (hanswers n), if_pos rfl] at h
      cases List.mem_singleton.1 h
      exact hresumes
    · rw [resumes_of_no_answer (by rw [hanswers, if_neg hk])] at h
      nomatch h
  | unanswered _ hanswers _ _ _ _ =>
    rw [resumes_of_no_answer (hanswers n)] at h
    nomatch h

/-- The prompts that were not taken away are those that tasks wait for, one each. -/
theorem openPrompts_perm (acts : List Act) :
    (run w acts).window.openPrompts.Perm ((run w acts).jobs.filterMap Job.prompt?) := by
  have hvalid := (reachable_run hw acts).valid
  have hattended := attended_run hw acts
  have hnodup : ((run w acts).jobs.filterMap Job.prompt?).Nodup := by
    refine List.Pairwise.filterMap _ (fun j k hne n hn m hm heq => hne ?_) hvalid.distinct
    subst heq
    rw [Job.prompt?_eq_some_iff.1 hn, Job.prompt?_eq_some_iff.1 hm]
  refine (List.perm_ext_iff_of_nodup (List.nodup_range.filter _) hnodup).2 fun n => ?_
  rw [List.mem_filter, List.mem_range, List.mem_filterMap, decide_eq_true_eq]
  constructor
  · rintro ⟨hn, hopen⟩
    obtain ⟨p, hp⟩ : ∃ p, (run w acts).window.prompts[n]? = some p := ⟨_, List.getElem?_eq_getElem hn⟩
    refine hattended.awaited n p hp ?_
    cases hstate : p.state with
    | made => exact absurd hstate (hattended.displayed p (List.mem_of_getElem? hp))
    | shown => rfl
    | closed => exact absurd (by rw [Closed, hp, Option.map_some, hstate]) hopen
  · rintro ⟨job, hjob, hprompt⟩
    have hwaits := hvalid.waits job hjob
    unfold Job.Waits at hwaits
    rw [Job.prompt?_eq_some_iff.1 hprompt] at hwaits
    obtain ⟨p, hp, hshown, -⟩ := hwaits
    exact ⟨(List.getElem?_eq_some_iff.1 hp).1, not_closed_of_getElem? hp hshown⟩

/-- Whatever the user does to the prompts, each one that was made is shown, resumes just the task that posed it,
once and with the first answer that was given, and is taken away by this answer; the prompts that are left are
those that tasks wait for, one each. -/
theorem prompts_resume_once (hprompted : w.prompted = []) (acts : List Act) :
    (∀ n < (run w acts).window.prompts.length, ∃ job e p, Asked w acts n job ∧
        (run w acts).window.prompts[n]? = some p ∧ e.Shows n p.kind ∧
        (run w acts).window.about n = e :: if outcomes w acts n = [] then [] else [.promptDisposed n]) ∧
      (run w acts).window.openPrompts.Perm ((run w acts).jobs.filterMap Job.prompt?) ∧
      ∀ a n job answer, (job, answer) ∈ a.resumes n (run w acts) → (run w acts).Resumes a n job answer := by
  refine ⟨fun n hn => ?_, openPrompts_perm hw acts, fun a n job answer => resumes_run hw acts⟩
  obtain ⟨job, hasked⟩ := asked_run hw acts hn
  obtain ⟨p, hp⟩ : ∃ p, (run w acts).window.prompts[n]? = some p := ⟨_, List.getElem?_eq_getElem hn⟩
  obtain ⟨e, he, habout⟩ := (chronicled_run hw hprompted acts).shown n p hp
  refine ⟨job, e, p, hasked, hp, he, habout.trans ?_⟩
  have hclosed : (run w acts).window.Closed n ↔ p.state = .closed := by
    rw [Closed, hp, Option.map_some, Option.some.injEq]
  by_cases hnil : outcomes w acts n = []
  · rw [if_pos hnil, if_neg (mt hclosed.2 ((outcomes_eq_nil_iff hw acts n).1 hnil))]
  · rw [if_neg hnil, if_pos (hclosed.1 (not_not.1 (mt (outcomes_eq_nil_iff hw acts n).2 hnil)))]

omit hw

/-- A window whose prompts go on to tell what is done to them after they were answered. -/
def stickyWindow : Window := { sourceWindow with keepsHandlers := true }

/-- A language is chosen, and chosen and turned down again; then the choice of a compiler is turned down. -/
def repeatedActs : List Act :=
  compileActs.take 4 ++ [.step (.pick (some 0) [0]), .step (.hide (some 0)), .step (.hide none)]

theorem repeatedActs_resume_once : stickyWindow.Fresh ∧ stickyWindow.prompted = [] ∧
    outcomes stickyWindow repeatedActs 0 = [.chosen 0, .chosen 0, .nothing] ∧
    ∃ job, resumed stickyWindow repeatedActs 0 = [(job, .chosen 0)] ∧
      ∃ e, (run stickyWindow repeatedActs).window.about 0 = [e, .promptDisposed 0] := by
  have hsource : sourceWindow.Fresh := Window.fresh_ofDocument rfl
  have hfresh : stickyWindow.Fresh := ⟨rfl, rfl, rfl, rfl, rfl, hsource.undecorated, hsource.open_of_visible⟩
  have houtcomes : outcomes stickyWindow repeatedActs 0 = [.chosen 0, .chosen 0, .nothing] := by decide +kernel
  have hlength : 0 < (run stickyWindow repeatedActs).window.prompts.length := by decide +kernel
  obtain ⟨job, e, p, hasked, -, -, habout⟩ := (prompts_resume_once hfresh rfl repeatedActs).1 0 hlength
  refine ⟨hfresh, rfl, houtcomes, job, ?_, e, ?_⟩
  · rw [hasked.resumed, houtcomes]
    rfl
  · rw [habout, houtcomes]
    rfl

end run

end Workbench

end AsmLens
