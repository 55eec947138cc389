import AsmLens.Proofs.Documents
import AsmLens.Proofs.Lines
import AsmLens.Workbench.Basic

/-!
# The stages of a task

A task waits for one answer at a time. `Job.Waits w job` says that in the window `w` this answer can
still come, and that a prompt offers what the task will look the answer up in. For every function
that takes a task from one stage to the next there is one lemma here: the task ends, or it begins to
wait for something that was not there before.

Up to the output of a compiler, and up to the answer of a formatter, all stages stay in the frame
`Window.Asks`. A stage of a compilation that goes on shows no message, and one that gives up after an
answer of the service shows just one.
-/

namespace AsmLens

open Window

/-- Requests, prompts and messages were only added. -/
structure Window.Grows (w w' : Window) : Prop where
  requests : w.requests <+: w'.requests
  prompts : w.prompts <+: w'.prompts
  messages : w.messages ≤ w'.messages

instance : Frame Grows where
  refl _ := ⟨List.prefix_rfl, List.prefix_rfl, Nat.le_refl _⟩
  trans h h' := ⟨h.requests.trans h'.requests, h.prompts.trans h'.prompts,
    Nat.le_trans h.messages h'.messages⟩

theorem Window.Presents.grows {w w' : Window} (h : Presents w w') : Grows w w' :=
  ⟨h.requests, h.prompts, h.messages⟩

def PromptKind.choices? : PromptKind → Option Nat
  | .choice count => some count
  | .text _ => none

/-- From how many items the answer is chosen that a task waits for, if it is chosen from items. -/
def Job.choices? : Job → Option Nat
  | .compile _ (.choosingLanguage _ offered) => some offered.length
  | .compile _ (.choosingCompiler _ _ offered) => some offered.length
  | .format _ (.choosingFormatter _ offered) => some offered.length
  | .format _ (.choosingStyle _ formatter) => some formatter.styles.length
  | _ => none

/-- An answer that a prompt with so many items can be given. -/
def Answer.Fits (choices : Option Nat) : Answer → Prop
  | .chosen i => ∃ count, choices = some count ∧ i < count
  | .entered _ => choices = none
  | .nothing => True

/-- What the task waits for can still come in the window. -/
def Job.Waits (w : Window) (job : Job) : Prop :=
  match job.wait? with
  | some (.request n) => w.requests[n]? = some true
  | some (.prompt n) =>
    ∃ p, w.prompts[n]? = some p ∧ p.state = .shown ∧ p.kind.choices? = job.choices?
  | some (.message n) => n < w.messages
  | none => False

/-- What is waited for was not there yet in the window. -/
def Wait.IsNew (w : Window) : Wait → Prop
  | .request n => w.requests.length ≤ n
  | .prompt n => w.prompts.length ≤ n
  | .message n => w.messages ≤ n

/-- Between two windows the task began to wait for something new. -/
def Job.Begins (w w' : Window) (job : Job) : Prop :=
  job.Waits w' ∧ ∀ what, job.wait? = some what → what.IsNew w

namespace Job

variable {w w₁ w' : Window} {job : Job} {n : Nat}

theorem begins_request (hwait : job.wait? = some (.request n)) (hn : n = w.requests.length)
    (hrequests : w'.requests = w.requests ++ [true]) : job.Begins w w' := by
  subst hn
  refine ⟨?_, fun what hwhat => ?_⟩
  · unfold Waits
    rw [hwait]
    show w'.requests[w.requests.length]? = some true
    rw [hrequests, List.getElem?_concat_length]
  · rw [hwait] at hwhat
    cases hwhat
    exact Nat.le_refl _

theorem begins_prompt {kind : PromptKind} (hwait : job.wait? = some (.prompt n))
    (hn : n = w.prompts.length) (hprompts : w'.prompts = w.prompts ++ [⟨kind, .shown⟩])
    (hkind : kind.choices? = job.choices?) : job.Begins w w' := by
  subst hn
  refine ⟨?_, fun what hwhat => ?_⟩
  · unfold Waits
    rw [hwait]
    refine ⟨⟨kind, .shown⟩, ?_, rfl, hkind⟩
    rw [hprompts, List.getElem?_concat_length]
  · rw [hwait] at hwhat
    cases hwhat
    exact Nat.le_refl _

theorem begins_message (hwait : job.wait? = some (.message n)) (hn : n = w.messages)
    (hmessages : n < w'.messages) : job.Begins w w' := by
  subst hn
  refine ⟨?_, fun what hwhat => ?_⟩
  · unfold Waits
    rw [hwait]
    exact hmessages
  · rw [hwait] at hwhat
    cases hwhat
    exact Nat.le_refl _

theorem Begins.after (hgrows : Grows w w₁) (h : job.Begins w₁ w') : job.Begins w w' := by
  refine ⟨h.1, fun what hwhat => ?_⟩
  have hnew := h.2 what hwhat
  cases what with
  | request n => exact Nat.le_trans hgrows.requests.length_le hnew
  | prompt n => exact Nat.le_trans hgrows.prompts.length_le hnew
  | message n => exact Nat.le_trans hgrows.messages hnew

theorem getElem?_of_prefix {α : Type} {l l' : List α} (h : l <+: l') {n : Nat} {a : α}
    (ha : l[n]? = some a) : l'[n]? = some a := by
  obtain ⟨t, rfl⟩ := h
  rw [List.getElem?_append_left (List.getElem?_eq_some_iff.1 ha).1, ha]

theorem Waits.grows (hgrows : Grows w w') (h : job.Waits w) : job.Waits w' := by
  unfold Waits at h ⊢
  cases hwait : job.wait? with
  | none => rw [hwait] at h; exact h
  | some what =>
    rw [hwait] at h
    cases what with
    | request n => exact getElem?_of_prefix hgrows.requests h
    | prompt n =>
      obtain ⟨p, hp, hstate⟩ := h
      exact ⟨p, getElem?_of_prefix hgrows.prompts hp, hstate⟩
    | message n => exact Nat.lt_of_lt_of_le h hgrows.messages

/-- Between two windows the task ended or began to wait for something new. -/
def GoesOn (w w' : Window) (job : Job) : Prop := job.wait? = none ∨ job.Begins w w'

theorem GoesOn.after (hgrows : Grows w w₁) (h : job.GoesOn w₁ w') : job.GoesOn w w' :=
  h.imp_right (.after hgrows)

end Job

/-! ### Compiling -/

namespace Compile

/-- A stage of a run between two windows, up to the output: the run ended after the user was told
why, or it waits for something new and nothing was shown. -/
def Proceeds (run : Run) (w : Window) (stage : Stage) (w' : Window) : Prop :=
  stage = .finished ∧ Told w w' ∨ Quiet w w' ∧ (Job.compile run stage).Begins w w'

theorem Proceeds.after {run : Run} {stage : Stage} {w w₁ w' : Window} (hquiet : Quiet w w₁)
    (h : Proceeds run w₁ stage w') : Proceeds run w stage w' := by
  obtain ⟨hstage, htold⟩ | ⟨hquiet', hbegins⟩ := h
  · exact .inl ⟨hstage, hquiet.told htold⟩
  · exact .inr ⟨Frame.trans hquiet hquiet', hbegins.after hquiet.toAsks.presents.grows⟩

theorem refuse_ends (why : String) (w : Window) :
    Ends (refuse why) w (fun stage w' => stage = .finished ∧ Told w w')
      fun e w' => Quiet w w' ∧ e.HasMessage := by
  refine (Message.tellError_ends why w).bind (fun _ w' h => .pure ⟨rfl, h.1⟩) fun e w' he => ?_
  exact ⟨he.1, he.2.1⟩

theorem start_ends (document : Document) (selection : Selection) (range : Option LineRange)
    (w : Window) :
    Ends (start document selection range) w
      (fun r w' => Quiet w w' ∧ (Job.compile r.1 r.2).Begins w w')
      fun e w' => Quiet w w' ∧ e.HasMessage := by
  refine .look ((Ends.ofExcept _).bind (fun source w' hw => ?_) ?_)
  · obtain ⟨rfl, -⟩ := hw
    refine (Ends.lift (Query.languages.send_gives w')).bind (fun n w'' h => .pure ?_) fun _ _ he => he
    exact ⟨h.1, Job.begins_request rfl h.2.1 h.2.2⟩
  · rintro e w' ⟨rfl, he⟩
    exact ⟨Frame.refl _, Source.tellable_ofLines _ _ _ e he⟩

theorem offerLanguages_ends (run : Run) (languages : List Language) (w : Window) :
    Ends (offerLanguages run languages) w (Proceeds run w) fun e w' => Quiet w w' ∧ e.HasMessage := by
  unfold offerLanguages
  dsimp only
  split
  · exact (refuse_ends _ w).mono (fun _ _ h => .inl h) fun _ _ he => he
  · refine (Prompt.askChoice_ends _ _ _ w).bind (fun n w' h => .pure ?_) fun _ _ he => he
    refine .inr ⟨h.1, Job.begins_prompt rfl h.2.1 h.2.2 ?_⟩
    show some (List.length _) = some _
    rw [List.length_map]

theorem offerCompilers_ends (run : Run) (language : Language) (compilers : List Compiler) (w : Window) :
    Ends (offerCompilers run language compilers) w (Proceeds run w)
      fun e w' => Quiet w w' ∧ e.HasMessage := by
  unfold offerCompilers
  split
  · exact (refuse_ends _ w).mono (fun _ _ h => .inl h) fun _ _ he => he
  · refine (Prompt.askChoice_ends _ _ _ w).bind (fun n w' h => .pure ?_) fun _ _ he => he
    refine .inr ⟨h.1, Job.begins_prompt rfl h.2.1 h.2.2 ?_⟩
    show some (List.length _) = some _
    rw [List.length_map]

theorem onCatalog_ends {α : Type} {run : Run} {fetch : Host (Except String α)}
    {next : Except String α → Host Stage} {w : Window}
    (hfetch : Ends fetch w (fun _ w' => Quiet w w') fun e w' => Quiet w w' ∧ e.HasMessage)
    (hrefuse : ∀ e, next (.error e) = refuse e)
    (hoffer : ∀ a w, Ends (next (.ok a)) w (Proceeds run w) fun e w' => Quiet w w' ∧ e.HasMessage) :
    Ends (fetch >>= next) w (Proceeds run w) fun e w' => Quiet w w' ∧ e.HasMessage := by
  refine hfetch.bind (fun r w₁ h₁ => ?_) fun _ _ he => he
  have hafter : Ends (next r) w₁ (Proceeds run w₁) fun e w' => Quiet w₁ w' ∧ e.HasMessage := by
    cases r with
    | error e =>
      rw [hrefuse]
      exact (refuse_ends e w₁).mono (fun _ _ h => .inl h) fun _ _ he => he
    | ok a => exact hoffer a w₁
  exact hafter.mono (fun _ _ h => h.after h₁) fun _ _ he => ⟨Frame.trans h₁ he.1, he.2⟩

/-- A reply that a compiler's output can be read from. -/
def Accepts (reply : Reply) (output : CompileOutput) : Prop :=
  reply.bind CompileOutput.read = .ok (.ok output)

/-- A run that waits for the output of a compiler ends with it, or after the user was told why there
is none. -/
theorem onReply_compiling_ends (run : Run) (n : Nat) (language : Language) (compiler : Compiler)
    (arguments : String) (reply : Reply) (w : Window) :
    Ends (onReply run (.compiling n language compiler arguments) reply) w
      (fun stage w' => (∃ output, Accepts reply output ∧ stage = .compiled compiler output ∧ w' = w) ∨
        (∀ output, ¬ Accepts reply output) ∧ stage = .finished ∧ Told w w')
      fun e w' => (∀ output, ¬ Accepts reply output) ∧ Quiet w w' ∧ e.HasMessage := by
  unfold onReply
  refine (Query.posted_ends _ _ reply w).bind (fun r w₁ h₁ => ?_) fun _ _ he => ⟨he.2.2, he.1, he.2.1⟩
  · obtain ⟨hquiet, haccepts⟩ := h₁
    cases r with
    | ok output =>
      exact .pure (.inl ⟨output, (haccepts output).1.1 rfl, rfl, (haccepts output).2 rfl⟩)
    | error e =>
      have hnone : ∀ output, ¬ Accepts reply output := fun output h => nomatch (haccepts output).1.2 h
      refine (refuse_ends _ w₁).mono (fun stage w' h => .inr ⟨hnone, h.1, hquiet.told h.2⟩) ?_
      exact fun e w' he => ⟨hnone, Frame.trans hquiet he.1, he.2⟩

theorem onReply_of_accepts (run : Run) (n : Nat) (language : Language) (compiler : Compiler)
    (arguments : String) {reply : Reply} {output : CompileOutput} (haccepts : Accepts reply output)
    (w : Window) :
    Ends (onReply run (.compiling n language compiler arguments) reply) w
      (fun stage w' => stage = .compiled compiler output ∧ w' = w) fun _ _ => False := by
  refine (onReply_compiling_ends run n language compiler arguments reply w).mono (fun stage w' h => ?_)
    fun _ _ he => he.1 output haccepts
  obtain ⟨output', haccepts', rfl, rfl⟩ | ⟨hnone, -⟩ := h
  · cases haccepts.symm.trans haccepts'
    exact ⟨rfl, rfl⟩
  · exact absurd haccepts (hnone output)

theorem onReply_ends (run : Run) (stage : Stage) (reply : Reply) (w : Window) {n : Nat}
    (hwait : (Job.compile run stage).wait? = some (.request n))
    (hstage : ∀ k language compiler arguments, stage ≠ .compiling k language compiler arguments) :
    Ends (onReply run stage reply) w (Proceeds run w) fun e w' => Quiet w w' ∧ e.HasMessage := by
  cases stage with
  | fetchingLanguages k =>
    exact onCatalog_ends (Query.languagesFrom_ends reply w) (fun _ => rfl) (offerLanguages_ends run)
  | fetchingCompilers k language =>
    exact onCatalog_ends (Query.compilersFrom_ends language.id reply w) (fun _ => rfl)
      (offerCompilers_ends run language)
  | compiling k language compiler arguments => exact absurd rfl (hstage k language compiler arguments)
  | _ => nomatch hwait

theorem onAnswer_ends (run : Run) (stage : Stage) (answer : Answer) (w : Window) {n : Nat}
    (hwait : (Job.compile run stage).wait? = some (.prompt n)) :
    Ends (onAnswer run stage answer) w
      (fun stage' w' => Quiet w w' ∧ (answer ≠ .nothing ∧ (Job.compile run stage').Begins w w' ∨
        stage' = .finished ∧ (answer.Fits (Job.compile run stage).choices? → answer = .nothing)))
      fun e w' => answer ≠ .nothing ∧ Quiet w w' ∧ e.HasMessage := by
  cases answer with
  | nothing =>
    have hrun : onAnswer run stage .nothing = pure .finished := by cases stage <;> rfl
    rw [hrun]
    exact .pure ⟨Frame.refl w, .inr ⟨rfl, fun _ => rfl⟩⟩
  | chosen i =>
    -- What is not offered does not fit.
    have hoffered : ∀ {α : Type} {offered : List α}, offered[i]? = none →
        ¬ Answer.Fits (some offered.length) (.chosen i) := by
      rintro α offered hnone ⟨count, hcount, hi⟩
      cases hcount
      exact absurd (List.getElem?_eq_none_iff.1 hnone) (Nat.not_le.2 hi)
    cases stage with
    | choosingLanguage k offered =>
      unfold onAnswer
      dsimp only
      split
      · rename_i hnone
        exact .pure ⟨Frame.refl w, .inr ⟨rfl, fun hfits => absurd hfits (hoffered hnone)⟩⟩
      · refine (Ends.lift ((Query.compilers _).send_gives w)).bind (fun n w' h => .pure ?_) fun _ _ he => he
        exact ⟨h.1, .inl ⟨nofun, Job.begins_request rfl h.2.1 h.2.2⟩⟩
    | choosingCompiler k language offered =>
      unfold onAnswer
      dsimp only
      split
      · rename_i hnone
        exact .pure ⟨Frame.refl w, .inr ⟨rfl, fun hfits => absurd hfits (hoffered hnone)⟩⟩
      · refine (Prompt.askText_ends _ _ w).bind (fun n w' h => .pure ?_) fun _ _ he => ⟨nofun, he⟩
        exact ⟨h.1, .inl ⟨nofun, Job.begins_prompt rfl h.2.1 h.2.2 rfl⟩⟩
    | enteringArguments k language compiler =>
      refine .pure ⟨Frame.refl w, .inr ⟨rfl, fun hfits => ?_⟩⟩
      obtain ⟨count, hcount, -⟩ := hfits
      nomatch hcount
    | _ => nomatch hwait
  | entered text =>
    cases stage with
    | enteringArguments k language compiler =>
      refine (Ends.lift (log_quiet _ w)).bind (fun _ w₁ h₁ => ?_) fun _ _ he => he
      refine (Ends.lift ((query run language compiler text).send_gives w₁)).bind
        (fun n w' h => .pure ?_) fun _ _ he => he
      exact ⟨Frame.trans h₁ h.1,
        .inl ⟨nofun, (Job.begins_request rfl h.2.1 h.2.2).after h₁.toAsks.presents.grows⟩⟩
    | choosingLanguage k offered =>
      exact .pure ⟨Frame.refl w, .inr ⟨rfl, fun hfits => nomatch hfits⟩⟩
    | choosingCompiler k language offered =>
      exact .pure ⟨Frame.refl w, .inr ⟨rfl, fun hfits => nomatch hfits⟩⟩
    | _ => nomatch hwait

end Compile

/-! ### Formatting -/

namespace Format

variable {run : Run} {w w₁ w' : Window}

/-- A stage of a run between two windows: the run ended or waits for something new. -/
def Proceeds (run : Run) (w : Window) (stage : Stage) (w' : Window) : Prop :=
  Asks w w' ∧ (Job.format run stage).GoesOn w w'

theorem Proceeds.after {stage : Stage} (hasks : Asks w w₁) (h : Proceeds run w₁ stage w') :
    Proceeds run w stage w' :=
  ⟨Frame.trans hasks h.1, h.2.after hasks.presents.grows⟩

theorem refuse_ends (why : String) (w : Window) :
    Ends (refuse why) w
      (fun stage w' => stage = .finished ∧ Asks w w' ∧
        (∃ n, w'.shown = w.shown ++ [.message n .error why false []]) ∧
        w.failures.get? .showError = none)
      fun _ w' => Quiet w w' ∧ (w.failures.get? .showError).isSome := by
  refine (Message.tellError_ends why w).bind (fun _ w' h => .pure ⟨rfl, h.1.toAsks, h.2⟩) fun e w' he => ?_
  exact ⟨he.1, he.2.2⟩

theorem refuse_proceeds (run : Run) (why : String) (w : Window) :
    Ends (refuse why) w (Proceeds run w) fun _ w' => Asks w w' := by
  refine (refuse_ends why w).mono ?_ fun _ w' he => he.1.toAsks
  rintro _ w' ⟨rfl, hasks, -⟩
  exact ⟨hasks, .inl rfl⟩

theorem start_ends (n : Nat) (document : Document) (w : Window) :
    Ends (start n document) w
      (fun r w' => r.1 = ⟨w.config, n, document.uri, document.text⟩ ∧ Quiet w w' ∧
        (Job.format r.1 r.2).Begins w w')
      fun _ _ => False := by
  refine .look ((Ends.lift (Query.formatters.send_gives w)).bind (fun n w' h => .pure ?_) fun _ _ he => he)
  exact ⟨rfl, h.1, Job.begins_request rfl h.2.1 h.2.2⟩

theorem sendText_proceeds (run : Run) (formatter : Formatter) (style : String) (w : Window) :
    Ends (sendText run formatter style) w (Proceeds run w) fun _ w' => Asks w w' := by
  refine (Ends.lift (log_quiet _ w)).bind (fun _ w₁ h₁ => ?_) fun _ _ he => he
  refine (Ends.lift ((query run formatter style).send_gives w₁)).bind (fun n w' h => .pure ?_)
    fun _ _ he => he
  have hbegins : (Job.format run (.formatting n formatter style)).Begins w₁ w' :=
    Job.begins_request rfl h.2.1 h.2.2
  exact .after h₁.toAsks ⟨h.1.toAsks, .inr hbegins⟩

def notReplaced : String := "The document changed while formatting; nothing was replaced"

def Run.target (run : Run) (w : Window) : Document := (w.documents[run.document]?).getD default

/-- The document refuses the answer, and neither this nor telling the user fails. -/
def Run.IsRefused (run : Run) (w : Window) : Prop :=
  (run.target w).refusesEdits = true ∧ w.failures.get? .edit = none ∧ w.failures.get? .showError = none

/-- What a formatter made of a document, as the document is when the answer has come. -/
inductive Applies (run : Run) (answer : String) (w w' : Window) : Prop where
  | replaced (hrefuses : (run.target w).refusesEdits = false)
      (hdocuments : w'.documents = (w.setText run.document answer).documents)
      (hunarmed : w.failures.get? .edit = none)
  | kept (hrefuses : (run.target w).refusesEdits = true)
      (hdocuments : w'.documents = w.documents) (hunarmed : w.failures.get? .edit = none)
  | failed (hdocuments : w'.documents = w.documents) (harmed : (w.failures.get? .edit).isSome)

theorem not_isRefused_of_armed {call : HostCall} (hcall : call = .edit ∨ call = .showError)
    (harmed : (w.failures.get? call).isSome) : ¬ run.IsRefused w := by
  rintro ⟨-, hedit, hshow⟩
  rcases hcall with rfl | rfl
  · rw [hedit] at harmed
    nomatch harmed
  · rw [hshow] at harmed
    nomatch harmed

theorem apply_ends (run : Run) (formatter : Formatter) (style answer : String) (w : Window) :
    Ends (apply run formatter style answer) w
      (fun stage w' => stage = .finished ∧ Edits w w' ∧ Applies run answer w w' ∧
        (¬ run.IsRefused w ∧
            (∃ n text, w'.shown = w.shown ++ [.message n .information text false []]) ∨
          run.IsRefused w ∧ ∃ n, w'.shown = w.shown ++ [.message n .error notReplaced false []]))
      fun _ w' => Edits w w' ∧ Applies run answer w w' ∧ w'.shown = w.shown ∧ ¬ run.IsRefused w := by
  refine (Document.replaceAll_ends run.document (Text.lines answer) w).bind (fun applied w₁ h₁ => ?_)
    fun _ w' he => ⟨he.1.toAsks.edits, .failed he.1.documents he.2.2, he.1.shown,
      not_isRefused_of_armed (.inl rfl) he.2.2⟩
  obtain ⟨hedits, hshown, hfailures, hunarmed, happlied, hdocuments⟩ := h₁
  rw [Text.joinLines_lines] at hdocuments
  change applied = !(run.target w).refusesEdits at happlied
  cases hrefuses : (run.target w).refusesEdits with
  | false =>
    rw [hrefuses] at happlied
    subst happlied
    have hnot : ¬ run.IsRefused w := by
      rintro ⟨htrue, -⟩
      rw [hrefuses] at htrue
      nomatch htrue
    refine (Message.tellDone_ends _ w₁).bind (fun _ w' h => .pure ⟨rfl, ?_, ?_, .inl ⟨hnot, ?_⟩⟩)
      fun _ w' he => ⟨?_, ?_, he.1.shown.trans hshown, hnot⟩
    · exact Frame.trans hedits h.1.edits
    · exact .replaced hrefuses (h.1.documents.trans hdocuments) hunarmed
    · obtain ⟨-, n, hn⟩ := h
      exact ⟨n, _, by rw [hn, hshown]⟩
    · exact Frame.trans hedits he.1.toAsks.edits
    · exact .replaced hrefuses (he.1.documents.trans hdocuments) hunarmed
  | true =>
    rw [hrefuses] at happlied
    subst happlied
    refine (refuse_ends _ w₁).mono (fun stage w' h => ⟨h.1, ?_, ?_, .inr ⟨⟨hrefuses, hunarmed, ?_⟩, ?_⟩⟩)
      fun _ w' he => ⟨?_, ?_, he.1.shown.trans hshown, not_isRefused_of_armed (.inr rfl) ?_⟩
    · exact Frame.trans hedits h.2.1.edits
    · exact .kept hrefuses (h.2.1.documents.trans hdocuments) hunarmed
    · exact hfailures ▸ h.2.2.2
    · obtain ⟨-, -, ⟨n, hn⟩, -⟩ := h
      exact ⟨n, by rw [hn, hshown]; rfl⟩
    · exact Frame.trans hedits he.1.toAsks.edits
    · exact .kept hrefuses (he.1.documents.trans hdocuments) hunarmed
    · exact hfailures ▸ he.2

/-- A reply that the text of a formatter that succeeded can be read from. -/
def Succeeds (reply : Reply) (output : FormatOutput) : Prop :=
  reply.bind (fun body => .ok (FormatOutput.read body)) = .ok (.ok output) ∧ output.exit = 0

theorem onReply_of_succeeds (run : Run) (n : Nat) (formatter : Formatter) (style : String)
    {reply : Reply} {output : FormatOutput} (h : Succeeds reply output) :
    onReply run (.formatting n formatter style) reply = apply run formatter style output.answer := by
  have hposted : (query run formatter style).posted (fun body => .ok (FormatOutput.read body)) reply =
      pure (.ok output) := by
    unfold Query.posted
    rw [h.1]
  show (query run formatter style).posted _ reply >>= _ = _
  rw [hposted, pure_bind]
  exact if_pos h.2

theorem onReply_proceeds (run : Run) (stage : Stage) (reply : Reply) (w : Window) {n : Nat}
    (hwait : (Job.format run stage).wait? = some (.request n))
    (hnone : ∀ k formatter style output, stage = .formatting k formatter style → ¬ Succeeds reply output) :
    Ends (onReply run stage reply) w (Proceeds run w) fun _ w' => Asks w w' := by
  cases stage with
  | fetchingFormatters k =>
    refine (Query.formattersFrom_ends reply w).bind (fun r w₁ h₁ => ?_) fun _ _ he => he.1.toAsks
    have hrefuse := fun why => (refuse_proceeds run why w₁).mono (fun _ _ h => h.after h₁.toAsks)
      fun _ _ he => Frame.trans h₁.toAsks he
    match r with
    | .error e => exact hrefuse e
    | .ok [] => exact hrefuse _
    | .ok (formatter :: rest) =>
      refine (Prompt.askChoice_ends _ _ _ w₁).bind (fun n w' h => .pure ?_) fun _ _ he =>
        Frame.trans h₁.toAsks he.1.toAsks
      refine .after h₁.toAsks ⟨h.1.toAsks, .inr (Job.begins_prompt rfl h.2.1 h.2.2 ?_)⟩
      show some (List.length _) = some _
      rw [List.length_map]
  | formatting k formatter style =>
    refine (Query.posted_ends _ _ reply w).bind (fun r w₁ h₁ => ?_) fun _ _ he => he.1.toAsks
    obtain ⟨hquiet, haccepts⟩ := h₁
    have hrefuse := fun why => (refuse_proceeds run why w₁).mono (fun _ _ h => h.after hquiet.toAsks)
      fun _ _ he => Frame.trans hquiet.toAsks he
    cases r with
    | error e => exact hrefuse _
    | ok output =>
      dsimp only
      split
      · rename_i hexit
        exact absurd ⟨(haccepts output).1.1 rfl, hexit⟩ (hnone k formatter style output rfl)
      · exact hrefuse _
  | _ => nomatch hwait

theorem onAnswer_proceeds (run : Run) (stage : Stage) (answer : Answer) (w : Window) :
    Ends (onAnswer run stage answer) w (Proceeds run w) fun _ w' => Asks w w' := by
  have hfinish : Ends (pure .finished) w (Proceeds run w) fun _ w' => Asks w w' :=
    .pure ⟨Frame.refl w, .inl rfl⟩
  unfold onAnswer
  split
  · split
    · exact hfinish
    · split
      · exact sendText_proceeds run _ _ w
      · refine (Prompt.askChoice_ends _ _ _ w).bind (fun n w' h => .pure ?_) fun _ _ he => he.1.toAsks
        refine ⟨h.1.toAsks, .inr (Job.begins_prompt rfl h.2.1 h.2.2 ?_)⟩
        show some (List.length _) = some _
        rw [List.length_map]
  · split
    · exact hfinish
    · exact sendText_proceeds run _ _ w
  · exact hfinish

end Format

/-! ### Documentation -/

namespace Tooltip

variable {w w₁ w' : Window}

/-- A stage of a lookup between two windows: it ended or waits for something new. -/
def Proceeds (w : Window) (stage : Stage) (w' : Window) : Prop :=
  Asks w w' ∧ (Job.tooltip stage).GoesOn w w'

theorem Proceeds.after {stage : Stage} (hasks : Asks w w₁) (h : Proceeds w₁ stage w') :
    Proceeds w stage w' :=
  ⟨Frame.trans hasks h.1, h.2.after hasks.presents.grows⟩

theorem refuse_proceeds (why : String) (w : Window) :
    Ends (do Message.tellError why; return .finished) w (Proceeds w) fun _ w' => Asks w w' := by
  refine (Message.tellError_ends why w).bind (fun _ w' h => .pure ⟨h.1.toAsks, .inl rfl⟩) fun e w' he => ?_
  exact he.1.toAsks

theorem start_proceeds (instructionSet : Option String) (lines : List String) (cursor : Position)
    (w : Window) :
    Ends (start instructionSet lines cursor) w (Proceeds w) fun _ w' => Asks w w' := by
  unfold start
  dsimp only
  split
  · exact refuse_proceeds _ w
  · split
    · exact .throw (Frame.refl w)
    · split
      · exact .pure ⟨Frame.refl w, .inl rfl⟩
      · refine (Ends.lift ((Query.documentation _ _).send_gives w)).bind (fun n w' h => .pure ?_)
          fun _ _ he => he
        exact ⟨h.1.toAsks, .inr (Job.begins_request rfl h.2.1 h.2.2)⟩

theorem onReply_proceeds (instructionSet opcode : String) (reply : Reply) (w : Window) :
    Ends (onReply instructionSet opcode reply) w (Proceeds w) fun _ w' => Asks w w' := by
  refine (Query.fetched_ends _ reply w).bind (fun r w₁ h₁ => ?_) fun _ _ he => he.1.toAsks
  have hrefuse := fun why => (refuse_proceeds why w₁).mono (fun _ _ h => h.after h₁.toAsks)
    fun _ _ he => Frame.trans h₁.toAsks he
  match r with
  | .error e => exact hrefuse e
  | .ok none => exact hrefuse _
  | .ok (some documentation) =>
    refine (Ends.ofExcept _).bind (fun text w₂ h₂ => ?_) fun e w₂ he => he.1 ▸ h₁.toAsks
    obtain ⟨rfl, -⟩ := h₂
    refine (Message.showLink_ends text _ _ w₂).bind (fun n w' h => ?_) fun _ _ he =>
      Frame.trans h₁.toAsks he
    cases n with
    | none => exact .pure ⟨Frame.trans h₁.toAsks h.1, .inl rfl⟩
    | some n =>
      obtain ⟨hn, hlt⟩ := h.2 n rfl
      exact .pure (.after h₁.toAsks ⟨h.1, .inr (Job.begins_message rfl hn hlt)⟩)

theorem onChoice_proceeds (link : Option Json) (chosen : Option String) (w : Window) :
    Ends (onChoice link chosen) w (Proceeds w) fun _ w' => Asks w w' := by
  refine (Message.followLink_ends link _ chosen w).bind (fun _ w' h => .pure ?_) fun _ _ he => he.toAsks
  exact ⟨h.toAsks, .inl rfl⟩

end Tooltip

end AsmLens
