import AsmLens.Proofs.Tasks

/-!
# What holds of the running program

`Wired` is what holds of the window and the sessions at every time, and `Valid` what holds of the tasks
as well between two things that happen: each task waits for something that can still come, and no two
of them for the same. Everything that the program does keeps both.
-/

namespace AsmLens

open Window

/-- A session links a source to the document generated from it, and draws in these two. -/
structure Entry.Paired (e : Entry DecorationCanvas) : Prop where
  generated : e.generated = e.source.generated
  source_uri : e.session.source.canvas.uri = e.source
  generated_uri : e.session.generated.canvas.uri = e.generated

theorem Entry.Paired.follows {e e' : Entry DecorationCanvas} (h : e.Paired) (hfollows : e.Follows e') :
    e'.Paired where
  generated := by rw [hfollows.generated, hfollows.source, h.generated]
  source_uri := by
    rw [hfollows.source, ← h.source_uri]
    exact (hfollows.session.canvas .source).1
  generated_uri := by
    rw [hfollows.generated, ← h.generated_uri]
    exact (hfollows.session.canvas .generated).1

namespace Workbench

/-- What holds of the window and the sessions. -/
structure Wired (b : Workbench) : Prop where
  sound : b.window.Sound
  paired : ∀ e ∈ b.highlights.entries, e.Paired
  draws : ∀ k, b.highlights.Draws k → k < b.window.decorationTypes
  listeners : b.isRegistered = true → b.contents.listeners ≠ []
  listening : b.isRegistered = true → b.highlights.isListening = true
  agrees : b.highlights.Agrees b.window

/-- What holds between two things that happen. -/
structure Valid (b : Workbench) : Prop extends Wired b where
  waits : ∀ job ∈ b.jobs, job.Waits b.window
  distinct : b.jobs.Pairwise fun j k => j.wait? ≠ k.wait?

variable {b b' : Workbench}

/-! ### The window and the sessions -/

theorem Wired.rests (h : Wired b) (hrests : b.Rests b')
    (hsound : b'.window.Sound ∧ Carries b.window b'.window)
    (hdecorationTypes : b.window.decorationTypes ≤ b'.window.decorationTypes) : Wired b' := by
  obtain ⟨w, rfl⟩ : ∃ w, b' = { b with window := w } := ⟨_, hrests⟩
  exact ⟨hsound.1, h.paired, fun k hk => Nat.lt_of_lt_of_le (h.draws k hk) hdecorationTypes, h.listeners,
    h.listening, h.agrees.carries hsound.2⟩

theorem Wired.presents (h : Wired b) (hrests : b.Rests b') (hpresents : Presents b.window b'.window) :
    Wired b' :=
  h.rests hrests ⟨hpresents.sound h.sound, hpresents.carries h.sound⟩
    (Nat.le_of_eq hpresents.decorationTypes.symm)

/-- Sessions that go on stay wired. -/
theorem Wired.follows (h : Wired b) {uri : Uri}
    (hentries : List.Forall₂ Entry.Follows b.highlights.entries b'.highlights.entries)
    (hwindow : Advances uri b.highlights.Draws b.window b'.window)
    (hlisteners : b'.isRegistered = true → b'.contents.listeners ≠ [])
    (hlistening : b'.isRegistered = true → b'.highlights.isListening = true)
    (hagrees : b'.highlights.Agrees b'.window) : Wired b' where
  sound := hwindow.sound h.draws h.sound
  paired e' he' := by
    obtain ⟨e, he, hfollows⟩ := forall₂_exists_left hentries he'
    exact (h.paired e he).follows hfollows
  draws k hk := Nat.lt_of_lt_of_le (h.draws k (Controller.draws_of_follows hentries hk))
    hwindow.decorationTypes
  listeners := hlisteners
  listening := hlistening
  agrees := hagrees

theorem paired_entryFor (run : Compile.Run) (output : CompileOutput) (k l : Nat) :
    (entryFor run output k l).Paired := ⟨rfl, rfl, rfl⟩

/-- The decoration types of a new session are its own, and nothing is shown of it yet. -/
theorem Published.agrees {run : Compile.Run} {output : CompileOutput} (hpublished : Published run output b b')
    (h : Wired b) : b'.highlights.Agrees b'.window := by
  obtain ⟨old, new, hentries, hends, hagrees, hnew⟩ := hpublished.entries
  have hold : old.flatMap Entry.types = b.highlights.entries.flatMap Entry.types :=
    Controller.types_of_follows (hends.imp fun _ _ h => h.1)
  have hlt : ∀ n ∈ old.flatMap Entry.types, n < b.window.decorationTypes := by
    intro n hn
    rw [hold, List.mem_flatMap] at hn
    obtain ⟨e, he, hn⟩ := hn
    exact h.draws n ⟨e, he, Entry.mem_types.1 hn⟩
  obtain rfl | ⟨k, l, rfl, -, hk, hkl, hl⟩ := hnew
  · rw [List.append_nil] at hentries
    refine ⟨?_, hentries ▸ hagrees h.agrees⟩
    rw [hentries, hold]
    exact h.agrees.nodup
  · refine ⟨?_, fun e he => ?_⟩
    · have htypes : [entryFor run output k l].flatMap Entry.types = [k, l] := rfl
      rw [hentries, List.flatMap_append, htypes, List.nodup_append]
      refine ⟨hold ▸ h.agrees.nodup, by simp [Nat.ne_of_lt hkl], fun n hn m hm => ?_⟩
      have hn' := hlt n hn
      simp only [List.mem_cons, List.not_mem_nil, or_false] at hm
      omega
    · rw [hentries] at he
      rcases List.mem_append.1 he with he | he
      · exact hagrees h.agrees e he
      · rw [List.mem_singleton.1 he]
        have hnew := fun n hn => hpublished.window.undecorated h.draws h.sound (n := n) hn
        refine ⟨Nat.ne_of_lt hkl, fun role => DecorationCanvas.agrees_of_undecorated ?_⟩
        cases role with
        | source => exact hnew k hk
        | generated => exact hnew l (Nat.le_trans hk (Nat.le_of_lt hkl))

theorem Wired.published {run : Compile.Run} {output : CompileOutput} (h : Wired b)
    (hpublished : Published run output b b') : Wired b' := by
  obtain ⟨old, new, hentries, hends, -, hnew⟩ := hpublished.entries
  have hdecorationTypes := hpublished.window.decorationTypes
  refine ⟨hpublished.window.sound h.draws h.sound, fun e he => ?_, fun k hk => ?_, fun hregistered => ?_,
    fun hregistered => ?_, hpublished.agrees h⟩
  · rw [hentries] at he
    rcases List.mem_append.1 he with he | he
    · obtain ⟨e₀, he₀, hend⟩ := forall₂_exists_left hends he
      exact (h.paired e₀ he₀).follows hend.1
    · obtain rfl | ⟨k, l, rfl, -⟩ := hnew
      · nomatch he
      · rw [List.mem_singleton.1 he]
        exact paired_entryFor run output k l
  · obtain ⟨e, he, role, rfl⟩ := hk
    rw [hentries] at he
    rcases List.mem_append.1 he with he | he
    · obtain ⟨e₀, he₀, hend⟩ := forall₂_exists_left hends he
      have hlt := h.draws _ ⟨e₀, he₀, role, hend.1.session.decoration role⟩
      exact Nat.lt_of_lt_of_le hlt hdecorationTypes
    · obtain rfl | ⟨k, l, rfl, -, -, hkl, hl⟩ := hnew
      · nomatch he
      · rw [List.mem_singleton.1 he]
        cases role with
        | source => exact Nat.lt_trans hkl hl
        | generated => exact hl
  · rw [hpublished.contents]
    exact h.listeners (hpublished.isRegistered ▸ hregistered)
  · rw [hpublished.isListening]
    exact h.listening (hpublished.isRegistered ▸ hregistered)

end Workbench

/-! ### Tasks -/

/-- A step that answers what a task waits for, with its notice. -/
def Job.AnsweredBy (job : Job) (w : Window) (step : Step) (n : Notice) : Prop :=
  (step.perform w).1 = [n] ∧ n.wakes? = job.wait?

namespace Job

variable {n : Notice} {job : Job} {b b' b'' : Workbench}

theorem Went.wired (h : job.Went n b b') (hwired : b.Wired) : b'.Wired := by
  cases h with
  | rests hrests hedits => exact hwired.presents hrests hedits.toPresents
  | published _ _ _ hpublished _ => exact hwired.published hpublished

theorem Went.grows (h : job.Went n b b') : Grows b.window b'.window := by
  cases h with
  | rests _ hedits => exact hedits.toPresents.grows
  | published _ _ _ hpublished _ => exact hpublished.window.grows

theorem Went.asks (h : job.Went n b b') (hrests : b'.Rests b'') (hasks : Asks b'.window b''.window) :
    job.Went n b b'' := by
  cases h with
  | rests hrests' hedits => exact .rests (Frame.trans hrests' hrests) (Frame.trans hedits hasks.edits)
  | published hjob hn haccepts hpublished hlinked =>
    exact .published hjob hn haccepts (hpublished.rests hrests hasks.advances hasks.carries) fun hlinks =>
      (hlinked hlinks).rests hrests (hasks.openDocument? _)

theorem Waits.isSome {w : Window} (h : job.Waits w) : job.wait?.isSome = true := by
  unfold Waits at h
  cases hwait : job.wait? with
  | none =>
    rw [hwait] at h
    exact h.elim
  | some what => rfl

theorem Waits.not_new {w : Window} {what : Wait} (h : job.Waits w) (hwait : job.wait? = some what) :
    ¬ what.IsNew w := by
  unfold Waits at h
  rw [hwait] at h
  cases what with
  | request k => exact Nat.not_le.2 (List.getElem?_eq_some_iff.1 h).1
  | prompt k =>
    obtain ⟨p, hp, -⟩ := h
    exact Nat.not_le.2 (List.getElem?_eq_some_iff.1 hp).1
  | message k => exact Nat.not_le.2 h

end Job

namespace Workbench

variable {b b' : Workbench} {n : Notice}

theorem contain_goes {job : Job} {what : Wait} (hn : n.wakes? = some what)
    (hwait : job.wait? = some what) (hwired : b.Wired) :
    Gives (contain job.name (n.go job)) b fun j b' => job.Went n b b' ∧
      ∀ job' ∈ j, job'.Begins b.window b'.window := by
  refine contain_gives (go_ends hn hwait hwired.sound hwired.draws) ?_ ?_ ?_
  · rintro job' b' ⟨hwent, hgoes⟩ hwaits
    refine ⟨hwent, fun job'' hjob => ?_⟩
    cases hjob
    refine hgoes.resolve_left fun hnone => ?_
    rw [hnone] at hwaits
    nomatch hwaits
  · rintro job' b' ⟨hwent, -⟩ -
    exact ⟨hwent, fun _ h => nomatch h⟩
  · intro fault b' hwent
    refine (onWindow_gives (reportFault_gives job.name fault b'.window)).mono fun _ b'' h => ?_
    exact ⟨hwent.asks h.2 h.1.1.1, fun _ h => nomatch h⟩

theorem valid_of_tasks {l l' : List Job} {j : Option Job} {w w' : Window} {b' : Workbench}
    (hwired : b'.Wired) (hjobs : b'.jobs = l ++ j.toList ++ l') (hwindow : b'.window = w')
    (hwaits : ∀ job ∈ l ++ l', job.Waits w)
    (hdistinct : (l ++ l').Pairwise fun j k => j.wait? ≠ k.wait?) (hgrows : Grows w w')
    (hbegins : ∀ job ∈ j, job.Begins w w') : b'.Valid := by
  subst hwindow
  refine ⟨hwired, fun job hjob => ?_, ?_⟩
  · rw [hjobs] at hjob
    simp only [List.mem_append, Option.mem_toList] at hjob
    rcases hjob with (hjob | hjob) | hjob
    · exact (hwaits job (List.mem_append_left _ hjob)).grows hgrows
    · exact (hbegins job hjob).1
    · exact (hwaits job (List.mem_append_right _ hjob)).grows hgrows
  · rw [hjobs]
    have hnew : ∀ job ∈ j, ∀ k ∈ l ++ l', job.wait? ≠ k.wait? := by
      intro job hjob k hk heq
      have hwait := hwaits k hk
      cases hwhat : k.wait? with
      | none =>
        unfold Job.Waits at hwait
        rw [hwhat] at hwait
        exact hwait
      | some what => exact hwait.not_new hwhat ((hbegins job hjob).2 what (heq.trans hwhat))
    cases j with
    | none => simpa using hdistinct
    | some job =>
      have hfirst := hnew job rfl
      rw [List.append_assoc]
      refine List.pairwise_middle (fun h => Ne.symm h) |>.2 ?_
      exact List.pairwise_cons.2 ⟨hfirst, hdistinct⟩

theorem Wired.jobs (h : Wired b) (jobs : List Job) : Wired { b with jobs } :=
  ⟨h.sound, h.paired, h.draws, h.listeners, h.listening, h.agrees⟩

theorem Wired.leaves {l : List Notice} {w : Window} (h : Wired b)
    (hleaves : Step.Leaves b.window l w) : Wired { b with window := w } :=
  h.rests rfl (hleaves.sound h.sound) (Nat.le_of_eq hleaves.decorationTypes.symm)

theorem Valid.others {what : Wait} {before after : List Job} {job : Job} (hb : b.Valid)
    (hjobs : b.jobs = before ++ job :: after) (hwait : job.wait? = some what) :
    ∀ k ∈ before ++ after, k.wait? ≠ some what := by
  have hdistinct := hb.distinct
  rw [hjobs, List.pairwise_middle fun h => Ne.symm h] at hdistinct
  intro k hk heq
  exact (List.pairwise_cons.1 hdistinct).1 k hk (hwait.trans heq.symm)

theorem Valid.onNotice {what : Wait} {w : Window} (hb : b.Valid) (hn : n.wakes? = some what) :
    (∀ job ∈ b.jobs, job.wait? ≠ some what) ∧
        Workbench.onNotice n { b with window := w } = ((), { b with window := w }) ∨
      ∃ before job after, b.jobs = before ++ job :: after ∧ job.wait? = some what ∧
        let r := contain job.name (n.go job) { b with window := w }
        Workbench.onNotice n { b with window := w } =
          ((), { r.2 with jobs := before ++ r.1.toList ++ after }) := by
  rw [onNotice_eq hn]
  by_cases hex : ∃ job ∈ b.jobs, job.wait? = some what
  · obtain ⟨job, hjob, hwait⟩ := hex
    obtain ⟨before, after, hjobs⟩ := List.append_of_mem hjob
    refine .inr ⟨before, job, after, hjobs, hwait, ?_⟩
    exact wake_of_split (b := { b with window := w }) hjobs hwait (hb.others hjobs hwait)
  · have hnone : ∀ job ∈ b.jobs, job.wait? ≠ some what := fun job hjob hwait => hex ⟨job, hjob, hwait⟩
    exact .inl ⟨hnone, wake_of_none hnone⟩

theorem Valid.wakes {what : Wait} {w : Window} (hb : b.Valid)
    (hleaves : Step.Leaves b.window [n] w) (hn : n.wakes? = some what) :
    (Workbench.onNotice n { b with window := w }).2.Valid := by
  have hwired := hb.toWired.leaves hleaves
  have hkeep : ∀ job ∈ b.jobs, job.wait? ≠ some what → job.Waits w := by
    intro job hjob hwait
    refine hleaves.waits job (hb.waits job hjob) fun n' hn' => ?_
    rw [List.mem_singleton.1 hn', hn]
    exact hwait.symm
  obtain ⟨hnone, heq⟩ | ⟨before, job, after, hjobs, hwait, heq⟩ := hb.onNotice (w := w) hn
  · rw [heq]
    exact ⟨hwired, fun job hjob => hkeep job hjob (hnone job hjob), hb.distinct⟩
  · rw [heq]
    have hgoes := contain_goes hn hwait hwired
    have hothers := hb.others hjobs hwait
    have hmem : ∀ k ∈ before ++ after, k ∈ b.jobs := by
      intro k hk
      rw [hjobs]
      exact (List.sublist_cons_self job after).append_left before |>.subset hk
    have hdistinct := hb.distinct.sublist (hjobs ▸ (List.sublist_cons_self job after).append_left before)
    exact valid_of_tasks ((hgoes.1.wired hwired).jobs _) rfl rfl
      (fun k hk => hkeep k (hmem k hk) (hothers k hk)) hdistinct hgoes.1.grows hgoes.2

/-! ### Notices that wake no task -/

/-- What is left of the program by a notice that is no answer. -/
structure Heard (n : Notice) (b b' : Workbench) : Prop where
  jobs : b'.jobs = b.jobs
  isRegistered : b'.isRegistered = b.isRegistered
  contents : b'.contents = b.contents ∨
    ∃ uri, n = .closed uri ∧ b.isRegistered = true ∧ b'.contents = b.contents.forget uri
  isListening : b'.highlights.isListening = b.highlights.isListening
  documents : b'.window.documents = b.window.documents
  window : ∀ uri, Advances uri b.highlights.Draws b.window b'.window
  entries : List.Forall₂ Entry.Follows b.highlights.entries b'.highlights.entries
  ended : b.highlights.isListening = true →
    List.Forall₂ (Controller.AfterNotice n) b.highlights.entries b'.highlights.entries
  agrees : b.highlights.Agrees b.window → b'.highlights.Agrees b'.window

theorem onClosed_gives (uri : Uri) (b : Workbench) :
    Gives (onClosed uri) b fun _ b' => b'.jobs = b.jobs ∧ b'.isRegistered = b.isRegistered ∧
      b'.highlights = b.highlights ∧ Remarks b.window b'.window ∧
      (b'.contents = b.contents ∨ b.isRegistered = true ∧ b'.contents = b.contents.forget uri) := by
  unfold onClosed
  refine look ?_
  cases hregistered : b.isRegistered with
  | false => exact .pure ⟨rfl, hregistered, rfl, Frame.refl _, .inl rfl⟩
  | true =>
    cases uri.isGenerated with
    | true => exact ⟨rfl, hregistered, rfl, Frame.refl _, .inr ⟨rfl, rfl⟩⟩
    | false => exact ⟨rfl, hregistered, rfl, remarks_emit rfl b.window _, .inl rfl⟩

theorem onNotice_heard (hn : n.wakes? = none) (b : Workbench) :
    Gives (onNotice n) b fun _ b' => Heard n b b' := by
  have hnotice := onHighlights_gives (f := (·.notice n)) (b.highlights.notice_gives n b.window)
  unfold onNotice
  refine hnotice.bind fun _ b₁ h₁ => ?_
  obtain ⟨⟨hentries, hended, hlistening, hdraws, hagrees⟩, hb₁⟩ := h₁
  obtain ⟨w, c, rfl⟩ : ∃ w c, b₁ = { b with window := w, highlights := c } := ⟨_, _, hb₁⟩
  have hheard : Heard n b { b with window := w, highlights := c } :=
    ⟨rfl, rfl, .inl rfl, hlistening, hdraws.documents, fun _ => hdraws.advances, hentries, hended, hagrees⟩
  cases n with
  | closed uri =>
    refine (onClosed_gives uri _).mono fun _ b' h => ?_
    obtain ⟨hjobs, hregistered, hhighlights, hremarks, hcontents⟩ := h
    refine ⟨hjobs, hregistered, hcontents.imp_right fun h => ⟨uri, rfl, h⟩, ?_,
      hremarks.documents.trans hdraws.documents, fun uri => ?_, ?_, ?_, fun ha => ?_⟩
    · rw [hhighlights]
      exact hlistening
    · exact Frame.trans hdraws.advances hremarks.advances
    · rw [hhighlights]
      exact hentries
    · rw [hhighlights]
      exact hended
    · rw [hhighlights]
      exact (hagrees ha).carries hremarks.carries
  | selectionChanged uri selections => exact .pure hheard
  | activeChanged uri => exact .pure hheard
  | _ => nomatch hn

theorem Heard.wired (h : Heard n b b') (hwired : Wired b) : Wired b' := by
  refine hwired.follows h.entries (h.window default) (fun hregistered => ?_) (fun hregistered => ?_)
    (h.agrees hwired.agrees)
  · have hlisteners := hwired.listeners (h.isRegistered ▸ hregistered)
    obtain hcontents | ⟨uri, -, -, hcontents⟩ := h.contents
    · rw [hcontents]
      exact hlisteners
    · rw [hcontents]
      exact hlisteners
  · rw [h.isListening]
    exact hwired.listening (h.isRegistered ▸ hregistered)

theorem Heard.valid (h : Heard n b b') (hb : Valid b) : Valid b' := by
  refine ⟨h.wired hb.toWired, ?_, ?_⟩
  · rw [h.jobs]
    exact fun job hjob => (hb.waits job hjob).grows (h.window default).grows
  · rw [h.jobs]
    exact hb.distinct

/-! ### What happens -/

theorem perform_eq (step : Step) (b : Workbench) :
    perform step b =
      (step.perform b.window).1.forM onNotice { b with window := (step.perform b.window).2 } := rfl

/-- An answer makes the task go on that waits for it, and the others keep waiting. -/
theorem Valid.answered {before after : List Job} {job : Job} {step : Step} (hb : Valid b)
    (hjobs : b.jobs = before ++ job :: after) (hanswered : job.AnsweredBy b.window step n) :
    ∃ w what, (step.perform b.window).2 = w ∧ job.wait? = some what ∧ n.wakes? = some what ∧
      Step.Answered b.window w ∧ Step.Leaves b.window [n] w ∧
      let r := contain job.name (n.go job) { b with window := w }
      perform step b = ((), { r.2 with jobs := before ++ r.1.toList ++ after }) := by
  obtain ⟨hl, hn⟩ := hanswered
  have hmem : job ∈ b.jobs := hjobs ▸ List.mem_append_cons_self
  obtain ⟨what, hwait⟩ := Option.isSome_iff_exists.1 (hb.waits job hmem).isSome
  rw [hwait] at hn
  have hsame := step.perform_answered b.window n what hl hn
  have hleaves := step.perform_gives b.window
  unfold Gives at hleaves
  rw [hl] at hleaves
  refine ⟨(step.perform b.window).2, what, rfl, hwait, hn, hsame, hleaves, ?_⟩
  rw [perform_eq, hl]
  generalize (step.perform b.window).2 = w
  have hwake : wake what n.go { b with window := w } = _ :=
    wake_of_split hjobs hwait (hb.others hjobs hwait)
  rw [← onNotice_eq hn] at hwake
  exact hwake

theorem Valid.unanswered {R : Workbench → Workbench → Prop} [Frame R] {step : Step} (hb : Valid b)
    (hnone : ¬ ∃ n, ∃ job ∈ b.jobs, job.AnsweredBy b.window step n)
    (hheard : ∀ n ∈ (step.perform b.window).1, ∀ b : Workbench, n.wakes? = none → b.Wired →
      Gives (Workbench.onNotice n) b fun _ b' => R b b') :
    R { b with window := (step.perform b.window).2 } (perform step b).2 := by
  have hleaves := step.perform_gives b.window
  unfold Gives at hleaves
  unfold Job.AnsweredBy at hnone
  rw [perform_eq]
  generalize (step.perform b.window).2 = w at hleaves ⊢
  generalize (step.perform b.window).1 = l at hnone hleaves hheard ⊢
  have hwired : Wired { b with window := w } := hb.toWired.leaves hleaves
  cases hleaves.notices with
  | none => exact Frame.refl _
  | closed uri =>
    have hactive := onNotice_heard (n := .activeChanged none) rfl { b with window := w }
    have hleft := hheard _ List.mem_cons_self { b with window := w } rfl hwired
    exact Frame.trans hleft (hheard (.closed uri) (by simp) _ rfl (Heard.wired hactive hwired))
  | one n =>
    show R _ (Workbench.onNotice n { b with window := w }).2
    cases hn : n.wakes? with
    | none => exact hheard n List.mem_cons_self _ hn hwired
    | some what =>
      obtain ⟨-, heq⟩ | ⟨before, job, after, hjobs, hwait, -⟩ := hb.onNotice (w := w) hn
      · rw [heq]
        exact Frame.refl _
      · exact absurd ⟨n, job, hjobs ▸ List.mem_append_cons_self, rfl, hn.trans hwait.symm⟩ hnone

/-- The output that a task waits for is published when it comes. -/
theorem Valid.publishes {named : Option Nat} {k : Nat} {run : Compile.Run} {language : Language}
    {compiler : Compiler} {arguments : String} {reply : Reply} {output : CompileOutput} (hb : Valid b)
    (hjob : Job.compile run (.compiling k language compiler arguments) ∈ b.jobs)
    (hrequest : b.window.requestFor? named = some k) (haccepts : Compile.Accepts reply output) :
    ∃ w b' jobs, Step.Answered b.window w ∧ Wired { b with window := w } ∧
      Published run output { b with window := w } b' ∧
      (Links run { b with window := w } → Linked run output { b with window := w } b') ∧
      (Workbench.perform (.reply named reply) b).2 = { b' with jobs } := by
  obtain ⟨before, after, hjobs⟩ := List.append_of_mem hjob
  have hanswered : Job.AnsweredBy (.compile run (.compiling k language compiler arguments)) b.window
      (.reply named reply) (.replied k reply) := ⟨by rw [Step.perform_reply reply hrequest], rfl⟩
  obtain ⟨w, what, -, -, -, hsame, hleaves, hperform⟩ := hb.answered hjobs hanswered
  have hwired := hb.toWired.leaves hleaves
  have hcontain : Gives
      (contain "compile" (onReply reply (.compile run (.compiling k language compiler arguments))))
      { b with window := w } fun _ b' => Published run output { b with window := w } b' ∧
        (Links run { b with window := w } → Linked run output { b with window := w } b') := by
    refine contain_gives
      (onReply_publishes run k language compiler arguments haccepts hwired.sound hwired.draws)
      (fun _ _ h _ => h.2) (fun _ _ h _ => h.2) fun fault b' h => ?_
    refine (onWindow_gives (reportFault_gives "compile" fault b'.window)).mono fun _ b'' h' => ?_
    have hasks := h'.1.1.1
    exact ⟨h.1.rests h'.2 hasks.advances hasks.carries, fun hlinks =>
      (h.2 hlinks).rests h'.2 (hasks.openDocument? _)⟩
  rw [hperform]
  exact ⟨w, _, _, hsame, hwired, hcontain.1, hcontain.2, rfl⟩

/-- A step in the window leaves a valid state. -/
theorem Valid.perform (hb : Valid b) (step : Step) : (Workbench.perform step b).2.Valid := by
  have hleaves := step.perform_gives b.window
  unfold Gives at hleaves
  rw [perform_eq]
  generalize (step.perform b.window).2 = w at hleaves ⊢
  generalize (step.perform b.window).1 = l at hleaves ⊢
  have hquiet : (∀ n ∈ l, n.wakes? = none) → Valid { b with window := w } := by
    intro hl
    refine ⟨hb.toWired.leaves hleaves, fun job hjob => ?_, hb.distinct⟩
    have hwaits := hb.waits job hjob
    refine hleaves.waits job hwaits fun n hn heq => ?_
    rw [hl n hn] at heq
    unfold Job.Waits at hwaits
    rw [← heq] at hwaits
    exact hwaits
  cases hleaves.notices with
  | none => exact hquiet (List.forall_mem_nil _)
  | one n =>
    cases hn : n.wakes? with
    | none =>
      have hvalid := hquiet fun n' hn' => by rw [List.mem_singleton.1 hn', hn]
      exact Heard.valid (onNotice_heard hn _) hvalid
    | some what => exact hb.wakes hleaves hn
  | closed uri =>
    have hvalid : Valid { b with window := w } := by
      refine hquiet fun n' hn' => ?_
      simp only [List.mem_cons, List.not_mem_nil, or_false] at hn'
      rcases hn' with rfl | rfl <;> rfl
    have hactive := Heard.valid (onNotice_heard (n := .activeChanged none) rfl _) hvalid
    exact Heard.valid (onNotice_heard (n := .closed uri) rfl _) hactive

end Workbench

end AsmLens
