import AsmLens.Proofs.Happening
import AsmLens.Proofs.Publishing
import AsmLens.Workbench.Run

/-!
# Tasks that go on

A notice wakes at most one task, because no two tasks wait for the same thing. `wake_of_split` says
what waking one of the tasks does to the list of tasks, and `go_ends` what the task does that goes on:
it stays in the window, unless it is a compilation whose output has just come, which is published.
-/

namespace AsmLens

open Window

namespace Workbench

variable {b b' : Workbench} {name : String}

/-! ### Faults -/

/-- What the user was told of a fault, if anything. -/
def ReportsFault (w w' : Window) : Prop :=
  w'.shown = w.shown ∨
    ∃ (n : Nat) (text : String),
      w'.shown = w.shown ++ [.message n .error s!"Compiler Explorer: {text}" false []]

theorem reportFault_gives (name : String) (fault : Fault) (w : Window) :
    Gives (reportFault name fault) w fun _ w' => (Asks w w' ∧
      (fault.HasMessage → w.failures.get? .showError = none → Told w w')) ∧ ReportsFault w w' := by
  have htell : ∀ w, Ends (do Message.tellError s!"Compiler Explorer: {← fault.message}") w
      (fun _ w' => Told w w' ∧
        ∃ (n : Nat) (text : String),
          w'.shown = w.shown ++ [.message n .error s!"Compiler Explorer: {text}" false []])
      fun _ w' => Quiet w w' ∧ ((w.failures.get? .showError).isSome ∨ ¬ fault.HasMessage) := by
    intro w
    refine (Ends.ofExcept _).bind (fun text w₁ h₁ => ?_) fun e w₁ he => ?_
    · obtain ⟨rfl, -⟩ := h₁
      refine (Message.tellError_ends _ w₁).mono (fun _ w' h => ⟨h.1, ?_⟩) fun _ _ he => ⟨he.1, .inl he.2.2⟩
      exact h.2.1.imp fun n hshown => ⟨text, hshown⟩
    · obtain ⟨rfl, he⟩ := he
      refine ⟨Frame.refl w₁, .inr ?_⟩
      rintro ⟨text, htext⟩
      rw [htext] at he
      nomatch he
  refine (logError_quiet _ _ w).bind fun _ w₁ h₁ => ?_
  have hrun := htell w₁
  unfold Ends at hrun
  refine hrun.bind fun r w₂ h₂ => ?_
  cases r with
  | ok _ =>
    have htold := h₁.told h₂.1
    refine .pure ⟨⟨htold.toAsks, fun _ _ => htold⟩, .inr ?_⟩
    rw [← h₁.shown]
    exact h₂.2
  | error e =>
    refine (logError_quiet _ _ w₂).mono fun _ w' h' => ?_
    have hquiet := Frame.trans h₁ (Frame.trans h₂.1 h')
    refine ⟨⟨hquiet.toAsks, fun hmessage hunarmed => ?_⟩, .inl hquiet.shown⟩
    rcases h₂.2 with harmed | hnone
    · rw [h₁.unarmed _ hunarmed] at harmed
      nomatch harmed
    · exact absurd hmessage hnone

/-- A part of a task comes to what it gives, or to what is left after its fault was reported. -/
theorem contain_gives {x : Work Job} {Q : Job → Workbench → Prop} {F : Fault → Workbench → Prop}
    {R : Option Job → Workbench → Prop} (h : Ends x b Q F)
    (hgoes : ∀ job b', Q job b' → job.wait?.isSome = true → R (some job) b')
    (hover : ∀ job b', Q job b' → job.wait? = none → R none b')
    (hfault : ∀ fault b', F fault b' →
      Gives (onWindow (reportFault name fault)) b' fun _ b'' => R none b'') :
    Gives (contain name x) b R := by
  unfold Ends at h
  unfold contain
  refine h.bind fun r b' hr => ?_
  cases r with
  | ok job =>
    cases hwait : job.wait? with
    | none =>
      refine Gives.pure ?_
      rw [hwait]
      exact hover job b' hr hwait
    | some what =>
      refine Gives.pure ?_
      rw [hwait]
      exact hgoes job b' hr (by rw [hwait]; rfl)
  | error fault => exact (hfault fault b' hr).bind fun _ _ h => .pure h

/-! ### Waking -/

theorem spawn_eq (name : String) (x : Work Job) (b : Workbench) :
    spawn name x b = ((), { (contain name x b).2 with
      jobs := (contain name x b).2.jobs ++ (contain name x b).1.toList }) := rfl

theorem spawn_gives {x : Work Job} {Q : Option Job → Window → Prop}
    (hrests : Ends x b (fun _ b' => b.Rests b') fun _ b' => b.Rests b')
    (h : Gives (contain name x) b fun j b' => Q j b'.window) :
    Gives (spawn name x) b fun _ b' => ∃ j : Option Job, b'.jobs = b.jobs ++ j.toList ∧ Q j b'.window := by
  have hcontain : Gives (contain name x) b fun _ b' => b.Rests b' := by
    refine contain_gives hrests (fun _ _ hb _ => hb) (fun _ _ hb _ => hb) fun fault b' hb => ?_
    exact (onWindow_gives (reportFault_gives name fault b'.window)).mono fun _ b'' hb' => Frame.trans hb hb'.2
  unfold Gives at hcontain h ⊢
  rw [spawn_eq]
  refine ⟨_, ?_, h⟩
  dsimp only
  rw [hcontain]

section Waking

variable {what : Wait} {go : Job → Work Job}

theorem filterMapM_keep {f : Job → Shell (Option Job)} {l : List Job} (h : ∀ a ∈ l, f a = pure (some a)) :
    l.filterMapM f = pure l := by
  induction l with
  | nil => rfl
  | cons a l ih =>
    rw [List.filterMapM_cons, h a List.mem_cons_self, pure_bind]
    dsimp only
    rw [ih fun a ha => h a (List.mem_cons_of_mem _ ha), pure_bind]

theorem filterMapM_split {f : Job → Shell (Option Job)} {before after : List Job} (job : Job)
    (h : ∀ a ∈ before ++ after, f a = pure (some a)) :
    (before ++ job :: after).filterMapM f = (fun j => before ++ j.toList ++ after) <$> f job := by
  induction before with
  | nil =>
    rw [List.nil_append, List.filterMapM_cons, filterMapM_keep (l := after) h, map_eq_pure_bind]
    congr 1
    funext j
    cases j <;> rfl
  | cons a before ih =>
    rw [List.cons_append, List.filterMapM_cons, h a List.mem_cons_self, pure_bind]
    dsimp only
    rw [ih fun a ha => h a (List.mem_cons_of_mem _ ha), bind_map_left, map_eq_pure_bind]
    rfl

theorem wake_eq (what : Wait) (go : Job → Work Job) (b : Workbench) :
    wake what go b =
      let r := b.jobs.filterMapM (fun job => (if job.wait? = some what then contain job.name (go job)
        else return some job : Shell (Option Job))) b
      ((), { r.2 with jobs := r.1 }) := rfl

theorem wake_of_none (h : ∀ job ∈ b.jobs, job.wait? ≠ some what) : wake what go b = ((), b) := by
  rw [wake_eq, filterMapM_keep fun job hjob => if_neg (h job hjob)]
  rfl

/-- One task goes on, and the others keep waiting. -/
theorem wake_of_split {before after : List Job} {job : Job} (hjobs : b.jobs = before ++ job :: after)
    (hwait : job.wait? = some what) (hothers : ∀ k ∈ before ++ after, k.wait? ≠ some what) :
    wake what go b = ((), { (contain job.name (go job) b).2 with
      jobs := before ++ (contain job.name (go job) b).1.toList ++ after }) := by
  rw [wake_eq, hjobs, filterMapM_split job fun k hk => if_neg (hothers k hk), if_pos hwait]
  rfl

end Waking

end Workbench

/-! ### What a task does that goes on -/

def Notice.go : Notice → Job → Work Job
  | .replied _ reply => Workbench.onReply reply
  | .answered _ answer => Workbench.onAnswer answer
  | .actionChosen _ chosen => Workbench.onChoice chosen
  | _ => pure

/-- What a task changed, apart from the tasks, when it went on after a notice. -/
inductive Job.Went (n : Notice) (job : Job) (b b' : Workbench) : Prop where
  | rests (hrests : b.Rests b') (hedits : Edits b.window b'.window)
  | published {run : Compile.Run} {k request : Nat} {language : Language} {compiler : Compiler}
      {arguments : String} {reply : Reply} {output : CompileOutput}
      (hjob : job = .compile run (.compiling k language compiler arguments))
      (hn : n = .replied request reply) (haccepts : Compile.Accepts reply output)
      (hpublished : b.Published run output b') (hlinked : b.Links run → b.Linked run output b')

namespace Workbench

theorem notice_eq {n : Notice} {what : Wait} (hn : n.wakes? = some what)
    (c : Controller DecorationCanvas) : c.notice n = pure c := by
  unfold Controller.notice
  cases n with
  | replied request reply => split <;> rfl
  | answered prompt answer => split <;> rfl
  | actionChosen message chosen => split <;> rfl
  | _ => nomatch hn

theorem onNotice_eq {n : Notice} {what : Wait} (hn : n.wakes? = some what) (b : Workbench) :
    onNotice n b = wake what n.go b := by
  have hsessions : onHighlights (·.notice n) b = ((), b) := by
    show ((), { b with
      window := (b.highlights.notice n b.window).2
      highlights := (b.highlights.notice n b.window).1 }) = _
    rw [notice_eq hn]
    rfl
  have hrest : ∀ rest : Shell Unit, (do onHighlights (·.notice n); rest) b = rest b := by
    intro rest
    show rest (onHighlights (·.notice n) b).2 = _
    rw [hsessions]
  cases n with
  | replied request reply =>
    cases hn
    exact hrest _
  | answered prompt answer =>
    cases hn
    exact hrest _
  | actionChosen message chosen =>
    cases hn
    exact hrest _
  | _ => nomatch hn

theorem continueCompile_eq (run : Compile.Run) {stage : Compile.Stage}
    (hstage : ∀ compiler output, stage ≠ .compiled compiler output) :
    continueCompile run stage = pure (.compile run stage) := by
  cases stage with
  | compiled compiler output => exact absurd rfl (hstage compiler output)
  | _ => rfl

variable {n : Notice} {job : Job}

theorem stage_ends {σ : Type} {x : Host σ} {f : σ → Job} {Q : σ → Window → Prop} {F : Fault → Window → Prop}
    (h : Ends x b.window Q F) (hq : ∀ a w', Q a w' → Edits b.window w' ∧ (f a).GoesOn b.window w')
    (hf : ∀ e w', F e w' → Edits b.window w') :
    Ends (show Work Job from do return f (← x)) b
      (fun job' b' => job.Went n b b' ∧ job'.GoesOn b.window b'.window)
      fun _ b' => job.Went n b b' := by
  refine (onHost_ends h).bind (fun a b' hb => .pure ?_) fun e b' hb => .rests hb.2 (hf e _ hb.1)
  obtain ⟨hedits, hgoes⟩ := hq a _ hb.1
  exact ⟨.rests hb.2 hedits, hgoes⟩

theorem continueCompile_ends {run : Compile.Run} {x : Host Compile.Stage} {Q : Compile.Stage → Window → Prop}
    {F : Fault → Window → Prop} (h : Ends x b.window Q F)
    (hq : ∀ stage w', Q stage w' → Edits b.window w' ∧
      (stage = .finished ∨ (Job.compile run stage).Begins b.window w'))
    (hf : ∀ e w', F e w' → Edits b.window w') :
    Ends (show Work Job from do continueCompile run (← x)) b
      (fun job' b' => job.Went n b b' ∧ job'.GoesOn b.window b'.window) fun _ b' => job.Went n b b' := by
  refine (onHost_ends h).bind (fun stage b' hb => ?_) fun e b' hb => .rests hb.2 (hf e _ hb.1)
  obtain ⟨hedits, hgoes⟩ := hq stage _ hb.1
  have hstage : ∀ compiler output, stage ≠ .compiled compiler output := by
    rintro compiler output rfl
    rcases hgoes with hover | hbegins
    · nomatch hover
    · exact hbegins.1
  rw [continueCompile_eq run hstage]
  refine .pure ⟨.rests hb.2 hedits, hgoes.imp_left ?_⟩
  rintro rfl
  rfl

theorem onReply_of_publish (run : Compile.Run) (k : Nat) (language : Language) (compiler : Compiler)
    (arguments : String) {reply : Reply} {output : CompileOutput} (haccepts : Compile.Accepts reply output)
    {Q : Workbench → Prop} {F : Fault → Workbench → Prop}
    (h : Ends (publish run compiler output) b (fun _ b' => Q b') F) :
    Ends (onReply reply (.compile run (.compiling k language compiler arguments))) b
      (fun job b' => job = .compile run .finished ∧ Q b') F := by
  have hreads := Compile.onReply_of_accepts run k language compiler arguments haccepts b.window
  refine (onHost_ends hreads).bind (fun stage b₁ hb => ?_) fun _ _ he => he.1.elim
  obtain ⟨⟨rfl, hw⟩, hrests⟩ := hb
  have hb₁ : b₁ = b := by rw [hrests, hw]
  subst hb₁
  exact h.bind (fun _ _ hq => .pure ⟨rfl, hq⟩) fun _ _ hf => hf

theorem onReply_publishes (run : Compile.Run) (k : Nat) (language : Language) (compiler : Compiler)
    (arguments : String) {reply : Reply} {output : CompileOutput} (haccepts : Compile.Accepts reply output)
    (hsound : b.window.Sound) (hdraws : ∀ k, b.highlights.Draws k → k < b.window.decorationTypes) :
    Ends (onReply reply (.compile run (.compiling k language compiler arguments))) b
      (fun job' b' => job' = .compile run .finished ∧ b.Published run output b' ∧
        (b.Links run → b.Linked run output b'))
      fun _ b' => b.Published run output b' ∧ (b.Links run → b.Linked run output b') :=
  onReply_of_publish run k language compiler arguments haccepts (publish_ends run compiler output b hsound hdraws)

theorem onReply_goes {request k : Nat} (reply : Reply) (hwait : job.wait? = some (.request k))
    (hsound : b.window.Sound) (hdraws : ∀ k, b.highlights.Draws k → k < b.window.decorationTypes) :
    Ends (onReply reply job) b
      (fun job' b' => job.Went (.replied request reply) b b' ∧ job'.GoesOn b.window b'.window)
      fun _ b' => job.Went (.replied request reply) b b' := by
  cases job with
  | compile run stage =>
    by_cases hcompiling : ∃ k language compiler arguments, stage = .compiling k language compiler arguments
    · obtain ⟨k, language, compiler, arguments, rfl⟩ := hcompiling
      by_cases haccepted : ∃ output, Compile.Accepts reply output
      · obtain ⟨output, haccepts⟩ := haccepted
        refine (onReply_publishes run k language compiler arguments haccepts hsound hdraws).mono
          (fun job' b' h => ?_) fun _ b' h => .published rfl rfl haccepts h.1 h.2
        obtain ⟨rfl, hpublished, hlinked⟩ := h
        exact ⟨.published rfl rfl haccepts hpublished hlinked, .inl rfl⟩
      · have h := Compile.onReply_compiling_ends run k language compiler arguments reply b.window
        refine (onHost_ends h).bind (fun stage b₁ hb => ?_) fun e b' hb =>
          .rests hb.2 hb.1.2.1.toAsks.edits
        obtain ⟨⟨output, haccepts, -⟩ | ⟨-, rfl, htold⟩, hrests⟩ := hb
        · exact absurd ⟨output, haccepts⟩ haccepted
        · exact .pure ⟨.rests hrests htold.toAsks.edits, .inl rfl⟩
    · refine continueCompile_ends (Compile.onReply_ends run stage reply b.window hwait ?_)
        (fun stage' w' h => ?_) fun e w' h => h.1.toAsks.edits
      · rintro k language compiler arguments rfl
        exact hcompiling ⟨k, language, compiler, arguments, rfl⟩
      · obtain ⟨hstage, htold⟩ | ⟨hquiet, hbegins⟩ := h
        · exact ⟨htold.toAsks.edits, .inl hstage⟩
        · exact ⟨hquiet.toAsks.edits, .inr hbegins⟩
  | format run stage =>
    by_cases hformatted : ∃ k formatter style output, stage = .formatting k formatter style ∧
        Format.Succeeds reply output
    · obtain ⟨k, formatter, style, output, rfl, hsucceeds⟩ := hformatted
      have h := Format.apply_ends run formatter style output.answer b.window
      rw [← Format.onReply_of_succeeds run k formatter style hsucceeds] at h
      refine stage_ends h (fun stage' w' h => ⟨h.2.1, .inl ?_⟩) fun _ _ h => h.1
      rw [h.1]
      rfl
    · refine stage_ends (Format.onReply_proceeds run stage reply b.window hwait ?_)
        (fun _ _ h => ⟨h.1.edits, h.2⟩) fun _ _ h => h.edits
      exact fun k formatter style output heq hsucceeds =>
        hformatted ⟨k, formatter, style, output, heq, hsucceeds⟩
  | tooltip stage =>
    cases stage with
    | fetching k set opcode =>
      exact stage_ends (Tooltip.onReply_proceeds set opcode reply b.window)
        (fun _ _ h => ⟨h.1.edits, h.2⟩) fun _ _ h => h.edits
    | _ => nomatch hwait

theorem onAnswer_goes (answer : Answer) {k : Nat} (hwait : job.wait? = some (.prompt k)) :
    Ends (onAnswer answer job) b (fun job' b' => job.Went n b b' ∧ job'.GoesOn b.window b'.window)
      fun _ b' => job.Went n b b' := by
  cases job with
  | compile run stage =>
    refine continueCompile_ends (Compile.onAnswer_ends run stage answer b.window hwait)
      (fun stage' w' h => ⟨h.1.toAsks.edits, ?_⟩) fun e w' h => h.2.1.toAsks.edits
    exact h.2.symm.imp And.left And.right
  | format run stage =>
    exact stage_ends (Format.onAnswer_proceeds run stage answer b.window)
      (fun _ _ h => ⟨h.1.edits, h.2⟩) fun _ _ h => h.edits
  | tooltip stage => cases stage <;> nomatch hwait

theorem onChoice_goes (chosen : Option String) {k : Nat} (hwait : job.wait? = some (.message k)) :
    Ends (onChoice chosen job) b (fun job' b' => job.Went n b b' ∧ job'.GoesOn b.window b'.window)
      fun _ b' => job.Went n b b' := by
  cases job with
  | compile run stage => cases stage <;> nomatch hwait
  | format run stage => cases stage <;> nomatch hwait
  | tooltip stage =>
    cases stage with
    | linking k link =>
      exact stage_ends (Tooltip.onChoice_proceeds link chosen b.window)
        (fun _ _ h => ⟨h.1.edits, h.2⟩) fun _ _ h => h.edits
    | _ => nomatch hwait

/-- A task that goes on stays in the window or publishes an output, and then it is over or waits for
something new. -/
theorem go_ends {what : Wait} (hn : n.wakes? = some what) (hwait : job.wait? = some what)
    (hsound : b.window.Sound) (hdraws : ∀ k, b.highlights.Draws k → k < b.window.decorationTypes) :
    Ends (n.go job) b (fun job' b' => job.Went n b b' ∧ job'.GoesOn b.window b'.window)
      fun _ b' => job.Went n b b' := by
  cases n with
  | replied request reply =>
    cases hn
    exact onReply_goes reply hwait hsound hdraws
  | answered prompt answer =>
    cases hn
    exact onAnswer_goes answer hwait
  | actionChosen message chosen =>
    cases hn
    exact onChoice_goes chosen hwait
  | _ => nomatch hn

end Workbench

end AsmLens
