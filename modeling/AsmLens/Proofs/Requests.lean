import AsmLens.Proofs.Notable
import AsmLens.Proofs.Outputs

/-!
# Which requests are sent

A request leaves the program only when a query is sent, and every part of the program sends one query at
most. `Job.query?` is the query that a task sends when it goes on after a notice, and `Window.Sends` says that
it and nothing else was sent. All that a command sends is a query that only asks, so whatever is posted was
posted by a task that went on (`Valid.sends_after`).
-/

namespace AsmLens

open Window

/-- A query was sent under the configuration in force, or none was, and no other request. -/
def Window.Sends (q : Option Query) (w w' : Window) : Prop :=
  w'.sent = w.sent ++
    (q.map fun q => Event.request w.requests.length (q.request w.config w.environment)).toList

namespace Window

variable {w w₁ w' : Window} {q : Option Query}

theorem sends_none_iff : Sends none w w' ↔ Unsent w w' := by
  rw [Sends, Option.map_none, Option.toList_none, List.append_nil, Unsent]

theorem Sends.after (h : Sends q w₁ w') (hunsent : Unsent w w₁)
    (hrequests : w₁.requests.length = w.requests.length) (hsettings : w₁.settings = w.settings)
    (henvironment : w₁.environment = w.environment) : Sends q w w' := by
  rw [Sends, config, hrequests, hsettings, henvironment, hunsent] at h
  exact h

theorem Sends.unsent {w₂ : Window} (h : Sends q w w₁) (hunsent : Unsent w₁ w₂) : Sends q w w₂ :=
  hunsent.trans h

theorem Sends.of_mem (h : Sends q w w') {k : Nat} {request : Request} (hmem : .request k request ∈ w'.sent) :
    .request k request ∈ w.sent ∨ ∃ q' ∈ q, request = q'.request w.config w.environment := by
  rw [h, List.mem_append] at hmem
  refine hmem.imp_right fun hmem => ?_
  obtain ⟨q', hq', heq⟩ := Option.map_eq_some_iff.1 (Option.mem_toList.1 hmem)
  cases heq
  exact ⟨q', hq', rfl⟩

/-- At most one query was sent, and none that sends a source. -/
def Inquires (w w' : Window) : Prop := ∃ q, Sends q w w' ∧ ∀ q' ∈ q, q'.body? = none

theorem Unsent.inquires (h : Unsent w w') : Inquires w w' := ⟨none, sends_none_iff.2 h, nofun⟩

theorem Inquires.unsent {w₂ : Window} (h : Inquires w w₁) (hunsent : Unsent w₁ w₂) : Inquires w w₂ := by
  obtain ⟨q, hsends, hq⟩ := h
  exact ⟨q, hsends.unsent hunsent, hq⟩

end Window

theorem Holds.sends_none {α : Type} {x : Host α} (h : Holds Unsent x) (w : Window) :
    Ends x w (fun _ w' => Sends none w w') fun _ w' => Sends none w w' :=
  (h w).mono (fun _ _ => sends_none_iff.2) fun _ _ => sends_none_iff.2

/-! ### Queries that are sent -/

namespace Query

theorem send_sends (q : Query) (w : Window) : Gives q.send w fun _ w' => Sends (some q) w w' := by
  show ((w.events ++ [_]) ++ [_]).filter Event.isRequest = _
  rw [List.filter_append, filter_concat_of_false rfl]
  rfl

theorem begin_sends {σ : Type} (q : Query) (f : Nat → σ) (w : Window) :
    Ends (show Host σ from do return f (← q.send)) w (fun _ w' => Sends (some q) w w')
      fun _ w' => Sends (some q) w w' :=
  (Ends.lift (q.send_sends w)).bind (fun _ _ h => .pure h) fun _ _ he => he

theorem begin_inquires {σ : Type} {q : Query} (hq : q.body? = none) (f : Nat → σ) (w : Window) :
    Ends (show Host σ from do return f (← q.send)) w (fun _ w' => Inquires w w') fun _ w' => Inquires w w' := by
  have hinquires : ∀ w', Sends (some q) w w' → Inquires w w' := by
    refine fun w' h => ⟨some q, h, ?_⟩
    rintro _ ⟨⟩
    exact hq
  exact (q.begin_sends f w).mono (fun _ => hinquires) fun _ => hinquires

theorem announce_sends {σ : Type} (texts : List String) (q : Query) (f : Nat → σ) (w : Window) :
    Ends (show Host σ from do log texts; return f (← q.send)) w (fun _ w' => Sends (some q) w w')
      fun _ w' => Sends (some q) w w' := by
  have hlog : Gives (log texts) w fun _ w₁ => Unsent w w₁ ∧ w₁.requests.length = w.requests.length ∧
      w₁.settings = w.settings ∧ w₁.environment = w.environment :=
    ⟨log_framed (R := Unsent) texts w, rfl, rfl, rfl⟩
  refine (Ends.lift hlog).bind (fun _ w₁ h₁ => ?_) fun _ _ he => he
  have hafter : ∀ w', Sends (some q) w₁ w' → Sends (some q) w w' := fun _ h =>
    h.after h₁.1 h₁.2.1 h₁.2.2.1 h₁.2.2.2
  exact (q.begin_sends f w₁).mono (fun _ => hafter) fun _ => hafter

end Query

/-! ### What tasks send -/

/-- The query that a task sends when it goes on after a notice. -/
def Job.query? : Job → Notice → Option Query
  | .compile _ (.choosingLanguage _ offered), .answered _ (.chosen i) =>
    offered[i]?.map fun language => .compilers language.id
  | .compile run (.enteringArguments _ language compiler), .answered _ (.entered arguments) =>
    some (Compile.query run language compiler arguments)
  | .format run (.choosingFormatter _ offered), .answered _ (.chosen i) =>
    offered[i]?.bind fun formatter =>
      if formatter.styles.isEmpty then some (Format.query run formatter Format.defaultStyle) else none
  | .format run (.choosingStyle _ formatter), .answered _ (.chosen i) =>
    formatter.styles[i]?.map (Format.query run formatter)
  | _, _ => none

namespace Compile

theorem start_inquires (document : Document) (selection : Selection) (range : Option LineRange) (w : Window) :
    Ends (start document selection range) w (fun _ w' => Inquires w w') fun _ w' => Inquires w w' := by
  refine .look ((Ends.ofExcept _).bind (fun source w₁ hw => ?_) fun e w₁ hw => ?_)
  · rw [hw.1]
    exact Query.begin_inquires rfl _ w
  · rw [hw.1]
    exact Unsent.inquires (Frame.refl w)

theorem onAnswer_sends (run : Run) (stage : Stage) (answer : Answer) (k : Nat) (w : Window) :
    Ends (onAnswer run stage answer) w
      (fun _ w' => Sends ((Job.compile run stage).query? (.answered k answer)) w w')
      fun _ w' => Sends ((Job.compile run stage).query? (.answered k answer)) w w' := by
  unfold onAnswer
  split
  · rename_i offered i
    show Ends _ w (fun _ w' => Sends (Option.map _ offered[i]?) w w')
      fun _ w' => Sends (Option.map _ offered[i]?) w w'
    cases offered[i]? with
    | none => exact .pure (sends_none_iff.2 (Frame.refl w))
    | some language => exact (Query.compilers language.id).begin_sends _ w
  · rename_i language offered i
    refine Holds.sends_none ?_ w
    split
    · exact .pure _
    · exact .bind (Asking.askText _ _) fun _ => .pure _
  · rename_i language compiler arguments
    exact (query run language compiler arguments).announce_sends _ _ w
  · rename_i hlanguage _ harguments
    have hnone : (Job.compile run stage).query? (.answered k answer) = none := by
      cases stage <;> cases answer <;> first | rfl | skip
      · exact (hlanguage _ _ _ rfl rfl).elim
      · exact (harguments _ _ _ _ rfl rfl).elim
    rw [hnone]
    exact (Holds.pure _).sends_none w

end Compile

namespace Format

theorem start_inquires (n : Nat) (document : Document) (w : Window) :
    Ends (start n document) w (fun _ w' => Inquires w w') fun _ w' => Inquires w w' :=
  .look (Query.begin_inquires rfl (fun k => (_, Stage.fetchingFormatters k)) w)

theorem onAnswer_sends (run : Run) (stage : Stage) (answer : Answer) (k : Nat) (w : Window) :
    Ends (onAnswer run stage answer) w
      (fun _ w' => Sends ((Job.format run stage).query? (.answered k answer)) w w')
      fun _ w' => Sends ((Job.format run stage).query? (.answered k answer)) w w' := by
  unfold onAnswer
  split
  · rename_i offered i
    show Ends _ w (fun _ w' => Sends (Option.bind offered[i]? _) w w')
      fun _ w' => Sends (Option.bind offered[i]? _) w w'
    cases offered[i]? with
    | none => exact .pure (sends_none_iff.2 (Frame.refl w))
    | some formatter =>
      rw [Option.bind_some]
      dsimp only
      split
      · exact (query run formatter defaultStyle).announce_sends _ _ w
      · exact (Holds.bind (Asking.askChoice _ _ _) fun _ => .pure _).sends_none w
  · rename_i formatter i
    show Ends _ w (fun _ w' => Sends (Option.map _ formatter.styles[i]?) w w')
      fun _ w' => Sends (Option.map _ formatter.styles[i]?) w w'
    cases formatter.styles[i]? with
    | none => exact .pure (sends_none_iff.2 (Frame.refl w))
    | some style => exact (query run formatter style).announce_sends _ _ w
  · rename_i hformatter hstyle
    have hnone : (Job.format run stage).query? (.answered k answer) = none := by
      cases stage <;> cases answer <;> first | rfl | skip
      · exact (hformatter _ _ _ rfl rfl).elim
      · exact (hstyle _ _ _ rfl rfl).elim
    rw [hnone]
    exact (Holds.pure _).sends_none w

end Format

namespace Tooltip

theorem start_inquires (instructionSet : Option String) (lines : List String) (cursor : Position) (w : Window) :
    Ends (start instructionSet lines cursor) w (fun _ w' => Inquires w w') fun _ w' => Inquires w w' := by
  unfold start
  dsimp only
  split
  · exact (refuse_framed (R := Unsent) _ w).mono (fun _ _ => Unsent.inquires) fun _ _ => Unsent.inquires
  · split
    · exact .throw (Unsent.inquires (Frame.refl w))
    · split
      · exact .pure (Unsent.inquires (Frame.refl w))
      · exact Query.begin_inquires rfl _ w

end Tooltip

/-! ### What the program sends -/

namespace Workbench

variable {b : Workbench} {n : Notice} {job : Job}

theorem sent_activate (w : Window) : (activate w).window.sent = w.sent :=
  (activate_within log_unnoted (fun _ => emit_unnoted rfl) w).unsent

theorem tellUnawaited_unsent (text : String) : Within Unsent (tellUnawaited text) :=
  tellUnawaited_framed (fun _ => emit_unsent rfl) text

theorem contain_sends {name : String} {x : Work Job} {P : Window → Prop}
    (hP : ∀ w w', P w → Unsent w w' → P w')
    (h : Ends x b (fun _ b' => P b'.window) fun _ b' => P b'.window) :
    Gives (contain name x) b fun _ b' => P b'.window :=
  contain_gives h (fun _ _ h _ => h) (fun _ _ h _ => h) fun fault b' h =>
    (onWindow_gives (reportFault_framed name fault b'.window)).mono fun _ _ h' => hP _ _ h h'.1

/-! ### Tasks that go on -/

theorem onHost_sends {σ : Type} {x : Host σ} {f : σ → Work Job} {q : Option Query}
    (hx : Ends x b.window (fun _ w' => Sends q b.window w') fun _ w' => Sends q b.window w')
    (hf : ∀ a, Holds (InWindow Unsent) (f a)) :
    Ends (show Work Job from do f (← x)) b (fun _ b' => Sends q b.window b'.window)
      fun _ b' => Sends q b.window b'.window :=
  (onHost_ends hx).bind (fun a b₁ h₁ => (hf a b₁).mono (fun _ _ h => h₁.1.unsent h) fun _ _ h => h₁.1.unsent h)
    fun _ _ h => h.1

theorem query?_replied (job : Job) (k : Nat) (reply : Reply) : job.query? (.replied k reply) = none := by
  unfold Job.query?
  split <;> first | rfl | contradiction

theorem query?_actionChosen (job : Job) (k : Nat) (chosen : Option String) :
    job.query? (.actionChosen k chosen) = none := by
  unfold Job.query?
  split <;> first | rfl | contradiction

theorem go_sends {what : Wait} (hn : n.wakes? = some what) (job : Job) (b : Workbench) :
    Ends (n.go job) b (fun _ b' => Sends (job.query? n) b.window b'.window)
      fun _ b' => Sends (job.query? n) b.window b'.window := by
  have hsame : Sends none b.window b.window := sends_none_iff.2 (Frame.refl b.window)
  cases n with
  | replied k reply =>
    rw [query?_replied]
    cases job with
    | compile run stage =>
      exact onHost_sends ((Compile.onReply_framed run stage reply).sends_none _) (continueCompile_framed run)
    | format run stage =>
      exact onHost_sends ((Format.onReply_framed run stage reply).sends_none _) fun _ => .pure _
    | tooltip stage =>
      cases stage with
      | fetching k set opcode =>
        exact onHost_sends ((Tooltip.onReply_framed set opcode reply).sends_none _) fun _ => .pure _
      | _ => exact .pure hsame
  | answered k answer =>
    cases job with
    | compile run stage =>
      exact onHost_sends (Compile.onAnswer_sends run stage answer k _) (continueCompile_framed run)
    | format run stage => exact onHost_sends (Format.onAnswer_sends run stage answer k _) fun _ => .pure _
    | tooltip stage => exact .pure hsame
  | actionChosen k chosen =>
    rw [query?_actionChosen]
    cases job with
    | tooltip stage =>
      cases stage with
      | linking k link =>
        exact onHost_sends ((Tooltip.onChoice_framed link chosen).sends_none _) fun _ => .pure _
      | _ => exact .pure hsame
    | _ => exact .pure hsame
  | _ => nomatch hn

/-- A task that gets the answer it waits for sends its query, under the configuration in force. -/
theorem Valid.goes_sends {step : Step} (hb : b.Valid) (hjob : job ∈ b.jobs)
    (hanswered : job.AnsweredBy b.window step n) :
    Sends (job.query? n) b.window (b.after (.step step)).window := by
  obtain ⟨_, _, what, -, -, hn, -, -, hafter⟩ := hb.goes_on hjob hanswered
  have hcontain : Gives (contain job.name (n.go job)) { b with window := (step.perform b.window).2 } fun _ b' =>
      Sends (job.query? n) (step.perform b.window).2 b'.window :=
    contain_sends (fun _ _ h h' => h.unsent h') (go_sends hn job _)
  rw [hafter]
  have hupholds := step.perform_upholds b.window
  unfold Gives at hupholds
  rw [hanswered.1] at hupholds
  obtain ⟨hsettings, henvironment⟩ := hupholds.reached.resolve_left (List.cons_ne_nil n [])
  exact Sends.after hcontain hupholds.notable.unsent hupholds.requests hsettings henvironment

theorem spawn_inquires (name : String) {σ : Type} {x : Host σ} {f : σ → Job}
    (h : Ends x b.window (fun _ w' => Inquires b.window w') fun _ w' => Inquires b.window w') :
    Gives (spawn name do return f (← x)) b fun _ b' => Inquires b.window b'.window := by
  have hcontain : Gives (contain name do return f (← x)) b fun _ b' => Inquires b.window b'.window :=
    contain_sends (fun _ _ => Inquires.unsent)
      ((onHost_ends h).bind (fun _ _ h => .pure h.1) fun _ _ h => h.1)
  unfold Gives
  rw [spawn_eq]
  exact hcontain

theorem invoke_inquires (id : String) (arguments : List Json) (b : Workbench) :
    Gives (invoke id arguments) b fun _ b' => Inquires b.window b'.window := by
  have htell : ∀ text, Gives (onWindow (tellUnawaited text)) b fun _ b' => Inquires b.window b'.window :=
    fun text => (tellUnawaited_unsent text b.window).inquires
  unfold invoke
  refine look ?_
  split
  · unfold runCommand
    refine look ?_
    split
    · exact htell _
    · exact spawn_inquires _ (Compile.start_inquires _ _ _ _)
    · exact htell _
    · exact spawn_inquires _ (Format.start_inquires _ _ _)
    · exact .pure (Unsent.inquires (Frame.refl b.window))
    · exact spawn_inquires _ (Tooltip.start_inquires _ _ _ _)
    · exact (within_onHighlights (R := Unsent) (fun c => c.finishWhere_framed _) b : Unsent _ _).inquires
  · exact Unsent.inquires (emit_unsent rfl b.window)

/-- What is sent when something happens is a query of a command, which only asks, or that of a task that goes
on. -/
theorem Valid.sends_after (hb : b.Valid) (a : Act) : Unsent b.window (b.after a).window ∨
    (∃ id arguments, a = .invoke id arguments ∧ Inquires b.window (b.after a).window) ∨
    ∃ step n job, a = .step step ∧ job ∈ b.jobs ∧ job.AnsweredBy b.window step n ∧
      Sends (job.query? n) b.window (b.after a).window := by
  cases a with
  | step step =>
    by_cases hanswered : ∃ n, ∃ job ∈ b.jobs, job.AnsweredBy b.window step n
    · obtain ⟨n, job, hjob, hanswered⟩ := hanswered
      exact .inr (.inr ⟨step, n, job, rfl, hjob, hanswered, hb.goes_sends hjob hanswered⟩)
    · have hwindow := (step.perform_upholds b.window).notable
      have hheard := hb.unanswered (R := InWindow Unnoted) hanswered fun n _ b' hn _ =>
        onNotice_displays (R := Unnoted) hn b'
      exact .inl (Unnoted.unsent (Frame.trans hwindow hheard))
  | invoke id arguments => exact .inr (.inl ⟨id, arguments, rfl, invoke_inquires id arguments b⟩)
  | deactivate => exact .inl (log_framed (R := Unsent) _ b.window)
  | dispose => exact .inl (dispose_framed (R := Unsent) b)

end Workbench

end AsmLens
