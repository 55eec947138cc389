import AsmLens.Proofs.Valid
import Mathlib.Data.List.Induction

/-!
# Reachable states

The program begins in a fresh window, and then one thing after another happens to it: something is done
to the window, a command is invoked, the program is told to end. `Workbench.run` follows any list of such
acts, and `Workbench.Reachable` holds of every state between two of them. All of them are valid.
-/

namespace AsmLens

open Window

/-- What happens to the program from outside. -/
inductive Act where
  | step (step : Step)
  | invoke (id : String) (arguments : List Json)
  /-- The program is told to end. -/
  | deactivate
  /-- What is registered is disposed of. -/
  | dispose

/-- A window in which nothing was asked, shown or decorated yet. -/
structure Window.Fresh (w : Window) : Prop where
  requests : w.requests = []
  prompts : w.prompts = []
  messages : w.messages = 0
  decorationTypes : w.decorationTypes = 0
  diagnostics : w.diagnostics = []
  undecorated : ∀ p ∈ w.panes, p.decorations = []
  open_of_visible : ∀ p ∈ w.panes, p.isVisible = true →
    ∃ d, w.documents[p.document]? = some d ∧ d.isOpen = true

/-- A window with one document in one pane. -/
def Window.ofDocument (d : Document) : Window :=
  { documents := [d], panes := [⟨0, default, [], true⟩], active := some 0 }

theorem Window.fresh_ofDocument {d : Document} (hd : d.isOpen = true) : (ofDocument d).Fresh where
  requests := rfl
  prompts := rfl
  messages := rfl
  decorationTypes := rfl
  diagnostics := rfl
  undecorated p hp := by rw [List.mem_singleton.1 hp]
  open_of_visible p hp _ := by
    rw [List.mem_singleton.1 hp]
    exact ⟨d, rfl, hd⟩

namespace Workbench

def act : Act → Shell Unit
  | .step step => perform step
  | .invoke id arguments => invoke id arguments
  | .deactivate => deactivate
  | .dispose => dispose

def after (b : Workbench) (a : Act) : Workbench := (act a b).2

/-- The program that began in a window, after all of a list has happened. -/
def run (w : Window) (acts : List Act) : Workbench := acts.foldl after (activate w)

/-- A state of the program between two things that happen. -/
inductive Reachable : Workbench → Prop where
  | start {w : Window} (h : w.Fresh) : Reachable (activate w)
  | after {b : Workbench} (a : Act) (h : Reachable b) : Reachable (b.after a)

theorem run_concat (w : Window) (acts : List Act) (a : Act) :
    run w (acts ++ [a]) = (run w acts).after a := by
  unfold run
  rw [List.foldl_append]
  rfl

/-- What `f` reads off each of the things that happen, in order. -/
def trace {α : Type} (f : Workbench → Act → List α) (b : Workbench) : List Act → List α
  | [] => []
  | a :: acts => f b a ++ trace f (b.after a) acts

section trace

variable {α : Type} {f : Workbench → Act → List α}

theorem trace_append (b : Workbench) (acts acts' : List Act) :
    trace f b (acts ++ acts') = trace f b acts ++ trace f (acts.foldl after b) acts' := by
  induction acts generalizing b with
  | nil => rfl
  | cons a acts ih => rw [List.cons_append, trace, trace, ih, List.append_assoc, List.foldl_cons]

theorem trace_concat (w : Window) (acts : List Act) (a : Act) :
    trace f (activate w) (acts ++ [a]) = trace f (activate w) acts ++ f (run w acts) a := by
  rw [trace_append, trace, trace, List.append_nil, run]

theorem trace_eq_nil_iff (w : Window) (acts : List Act) : trace f (activate w) acts = [] ↔
    ∀ before a rest, acts = before ++ a :: rest → f (run w before) a = [] := by
  constructor
  · rintro h before a rest rfl
    rw [trace_append, trace, List.append_eq_nil_iff, List.append_eq_nil_iff] at h
    exact h.2.1
  · intro h
    induction acts using List.reverseRecOn with
    | nil => rfl
    | append_singleton acts a ih =>
      rw [trace_concat, ih fun before a' rest hacts => h before a' (rest ++ [a]) (by rw [hacts]; simp),
        h acts a [] rfl, List.append_nil]

end trace

theorem reachable_run {w : Window} (h : w.Fresh) (acts : List Act) : Reachable (run w acts) := by
  induction acts using List.reverseRecOn with
  | nil => exact .start h
  | append_singleton acts a ih =>
    rw [run_concat]
    exact .after a ih

/-! ### All reachable states are valid -/

theorem activate_within {R : Window → Window → Prop} [Frame R] (hlog : ∀ texts, Within R (log texts))
    (hregistered : ∀ id, Within R (emit (.commandRegistered id))) (w : Window) : R w (activate w).window := by
  have hannounce : Within R (do
      log ["Compiler Explorer Activated"]
      let address := ((← get).environment.filter (· ≠ "")).getD "none"
      log ["Compiler Explorer URL override:", address]
      Command.all.forM fun c => emit (.commandRegistered c.id)) :=
    (hlog _).bind fun _ => .look fun _ => (hlog _).bind fun _ => .forM fun _ _ => hregistered _
  exact hannounce w

theorem activate_logs (w : Window) : Logs w (activate w).window :=
  activate_within (fun _ => emit_logs _ rfl) (fun _ => emit_logs _ rfl) w

theorem valid_activate {w : Window} (h : w.Fresh) : (activate w).Valid := by
  have hsound : w.Sound := ⟨h.open_of_visible, fun p hp n _ => by rw [h.undecorated p hp]; rfl⟩
  have hlogs := (activate_logs w).redecorates (T := fun _ => False)
  refine ⟨⟨hlogs.sound nofun hsound, List.forall_mem_nil _, ?_, fun _ => List.cons_ne_nil _ _, fun _ => rfl,
    ⟨.nil, List.forall_mem_nil _⟩⟩, List.forall_mem_nil _, .nil⟩
  rintro k ⟨e, he, -⟩
  nomatch he

variable {b : Workbench}

/-- A step in the window by which a task begins. -/
def Starts (b : Workbench) (job : Job) (b' : Workbench) : Prop :=
  (b.Rests b' ∧ Asks b.window b'.window) ∧ job.GoesOn b.window b'.window

theorem contain_starts (name : String) {x : Work Job}
    (h : Ends x b (Starts b) fun _ b' => b.Rests b' ∧ Asks b.window b'.window) :
    Gives (contain name x) b fun j b' => (b.Rests b' ∧ Asks b.window b'.window) ∧
      ∀ job ∈ j, job.Begins b.window b'.window := by
  refine contain_gives h ?_ ?_ ?_
  · rintro job b' ⟨hstays, hgoes⟩ hwaits
    refine ⟨hstays, fun job' hjob => ?_⟩
    cases hjob
    refine hgoes.resolve_left fun hnone => ?_
    rw [hnone] at hwaits
    nomatch hwaits
  · rintro job b' ⟨hstays, -⟩ -
    exact ⟨hstays, fun _ h => nomatch h⟩
  · rintro fault b' ⟨hrests, hasks⟩
    refine (onWindow_gives (reportFault_gives name fault b'.window)).mono fun _ b'' h => ?_
    exact ⟨⟨Frame.trans hrests h.2, Frame.trans hasks h.1.1.1⟩, fun _ h => nomatch h⟩

theorem Valid.spawn (hb : b.Valid) (name : String) {x : Work Job}
    (h : Ends x b (Starts b) fun _ b' => b.Rests b' ∧ Asks b.window b'.window) :
    (Workbench.spawn name x b).2.Valid := by
  obtain ⟨⟨hrests, hasks⟩, hbegins⟩ := contain_starts name h
  rw [spawn_eq]
  have hjobs : (contain name x b).2.jobs = b.jobs := by rw [hrests]
  have hadded : (contain name x b).2.jobs ++ (contain name x b).1.toList =
      b.jobs ++ (contain name x b).1.toList ++ [] := by rw [hjobs, List.append_nil]
  refine valid_of_tasks ((hb.toWired.presents hrests hasks.presents).jobs _) hadded rfl ?_ ?_ hasks.presents.grows
    hbegins
  · rw [List.append_nil]
    exact hb.waits
  · rw [List.append_nil]
    exact hb.distinct

theorem Valid.asks {b' : Workbench} (hb : b.Valid) (hrests : b.Rests b')
    (hasks : Asks b.window b'.window) : b'.Valid := by
  have hjobs : b'.jobs = b.jobs := by rw [hrests]
  refine ⟨hb.toWired.presents hrests hasks.presents, ?_, ?_⟩
  · rw [hjobs]
    exact fun job hjob => (hb.waits job hjob).grows hasks.presents.grows
  · rw [hjobs]
    exact hb.distinct

theorem tellUnawaited_gives (text : String) (w : Window) :
    Gives (tellUnawaited text) w fun _ w' => Asks w w' ∧
      (w.failures.get? .showError = none → Told w w') := by
  have h := Message.tellError_ends text w
  unfold Ends at h
  unfold tellUnawaited
  refine h.bind fun r w' hr => ?_
  cases r with
  | ok _ => exact .pure ⟨hr.1.toAsks, fun _ => hr.1⟩
  | error fault =>
    refine (emit_quiet _ rfl rfl w').mono fun _ w'' hw => ⟨Frame.trans hr.1.toAsks hw.toAsks, fun hnone => ?_⟩
    rw [hnone] at hr
    nomatch hr.2.2

/-! ### Commands -/

theorem compile_starts (document : Document) (selection : Selection) (range : Option LineRange)
    (b : Workbench) :
    Ends (show Work Job from do
      let (run, stage) ← Compile.start document selection range
      return .compile run stage) b (Starts b) fun _ b' => b.Rests b' ∧ Asks b.window b'.window := by
  refine (onHost_ends (Compile.start_ends document selection range b.window)).bind
    (fun r b' h => .pure ?_) fun e b' h => ⟨h.2, h.1.1.toAsks⟩
  exact ⟨⟨h.2, h.1.1.toAsks⟩, .inr h.1.2⟩

theorem format_starts (n : Nat) (document : Document) (b : Workbench) :
    Ends (show Work Job from do
      let (run, stage) ← Format.start n document
      return .format run stage) b (Starts b) fun _ b' => b.Rests b' ∧ Asks b.window b'.window := by
  refine (onHost_ends (Format.start_ends n document b.window)).bind (fun r b' h => .pure ?_)
    fun e b' h => h.1.elim
  exact ⟨⟨h.2, h.1.2.1.toAsks⟩, .inr h.1.2.2⟩

theorem tooltip_starts (set : Option String) (lines : List String) (cursor : Position) (b : Workbench) :
    Ends (show Work Job from do return .tooltip (← Tooltip.start set lines cursor)) b (Starts b)
      fun _ b' => b.Rests b' ∧ Asks b.window b'.window := by
  refine (onHost_ends (Tooltip.start_proceeds set lines cursor b.window)).bind (fun r b' h => .pure ?_)
    fun e b' h => ⟨h.2, h.1⟩
  exact ⟨⟨h.2, h.1.1⟩, h.1.2⟩

theorem Valid.follows {b' : Workbench} (hb : b.Valid) (hjobs : b'.jobs = b.jobs)
    (hentries : List.Forall₂ Entry.Follows b.highlights.entries b'.highlights.entries)
    (hwindow : Advances default b.highlights.Draws b.window b'.window)
    (hlisteners : b'.isRegistered = true → b'.contents.listeners ≠ [])
    (hlistening : b'.isRegistered = true → b'.highlights.isListening = true)
    (hagrees : b'.highlights.Agrees b'.window) : b'.Valid := by
  refine ⟨hb.toWired.follows hentries hwindow hlisteners hlistening hagrees, ?_, ?_⟩
  · rw [hjobs]
    exact fun job hjob => (hb.waits job hjob).grows hwindow.grows
  · rw [hjobs]
    exact hb.distinct

theorem Valid.runCommand (hb : b.Valid) (command : Command) (arguments : List Json) :
    Gives (Workbench.runCommand command arguments) b fun _ b' => b'.Valid := by
  have htell : ∀ text, Gives (onWindow (tellUnawaited text)) b fun _ b' => b'.Valid := fun text =>
    hb.asks rfl (tellUnawaited_gives text b.window).1
  unfold Workbench.runCommand
  refine look ?_
  split
  · exact htell _
  · exact hb.spawn _ (compile_starts _ _ _ b)
  · exact htell _
  · exact hb.spawn _ (format_starts _ _ b)
  · exact .pure hb
  · exact hb.spawn _ (tooltip_starts _ _ _ b)
  · refine (onHighlights_gives (f := (·.finishAll)) (b.highlights.finishWhere_gives _ b.window)).mono ?_
    rintro _ b' ⟨⟨hends, -, hlistening, hdraws, hagrees⟩, hb'⟩
    obtain ⟨w, c, rfl⟩ : ∃ w c, b' = { b with window := w, highlights := c } := ⟨_, _, hb'⟩
    exact hb.follows rfl (hends.imp fun _ _ h => h.1) hdraws.advances hb.listeners
      (fun hregistered => hlistening.trans (hb.listening hregistered)) (hagrees hb.agrees)

theorem Valid.invoke (hb : b.Valid) (id : String) (arguments : List Json) :
    Gives (Workbench.invoke id arguments) b fun _ b' => b'.Valid := by
  unfold Workbench.invoke
  refine look ?_
  split
  · exact hb.runCommand _ arguments
  · exact hb.asks rfl (emit_quiet _ rfl rfl b.window).toAsks

/-- If anything is registered, the contents are given up, all sessions end, and the messages are withdrawn. -/
theorem dispose_disposes {Q : Controller DecorationCanvas → Window → Prop}
    (h : Gives b.highlights.dispose b.window Q) : Gives Workbench.dispose b fun _ b' => b' = b ∨
      ∃ c w w', Q c w ∧ Remarks w w' ∧
        b' = { b with window := w', highlights := c, contents := b.contents.dispose, isRegistered := false } := by
  unfold Workbench.dispose
  refine look ?_
  split
  · exact .pure (.inl rfl)
  · refine (change_gives _ b).bind fun _ b₁ h₁ => ?_
    subst h₁
    have hdispose := onHighlights_gives (f := (·.dispose)) (b := { b with contents := b.contents.dispose }) h
    refine hdispose.bind fun _ b₂ h₂ => ?_
    have hwithdraw : Within Remarks Diagnostic.withdrawAll := fun w => remarks_emit rfl w _
    refine (onWindow_gives (hwithdraw b₂.window)).bind fun _ b₃ h₃ => (change_gives _ b₃).mono fun _ b' h' => ?_
    refine .inr ⟨_, _, _, h₂.1, h₃.1, ?_⟩
    have hb₃ : b₃ = { b₂ with window := b₃.window } := h₃.2
    rw [h', hb₃, h₂.2]

theorem Valid.dispose (hb : b.Valid) : Gives Workbench.dispose b fun _ b' => b'.Valid := by
  refine (dispose_disposes (b.highlights.dispose_gives b.window)).mono fun _ b' h => ?_
  obtain rfl | ⟨c, w, w', ⟨hentries, -, hdraws, hagrees⟩, hremarks, rfl⟩ := h
  · exact hb
  · refine hb.follows rfl hentries ?_ nofun nofun ((hagrees hb.agrees).carries hremarks.carries)
    exact Frame.trans hdraws.advances hremarks.advances

theorem Valid.after (hb : b.Valid) (a : Act) : (b.after a).Valid := by
  cases a with
  | step step => exact hb.perform step
  | invoke id arguments => exact hb.invoke id arguments
  | deactivate =>
    have hvalid : Valid { b with window := (log ["Compiler Explorer Deactivated"] b.window).2 } :=
      hb.asks rfl (log_quiet _ b.window).toAsks
    exact ⟨⟨hvalid.sound, hvalid.paired, hvalid.draws, hvalid.listeners, hvalid.listening, hvalid.agrees⟩,
      hvalid.waits, hvalid.distinct⟩
  | dispose => exact hb.dispose

/-- The task that waits for an answer goes on in the window that the answer leaves, and the others keep waiting. -/
theorem Valid.goes_on (hb : b.Valid) {job : Job} (hjob : job ∈ b.jobs) {step : Step} {n : Notice}
    (hanswered : job.AnsweredBy b.window step n) :
    ∃ before after what, b.jobs = before ++ job :: after ∧ job.wait? = some what ∧ n.wakes? = some what ∧
      Step.Answered b.window (step.perform b.window).2 ∧ Step.Leaves b.window [n] (step.perform b.window).2 ∧
      let r := contain job.name (n.go job) { b with window := (step.perform b.window).2 }
      b.after (.step step) = { r.2 with jobs := before ++ r.1.toList ++ after } := by
  obtain ⟨before, after, hjobs⟩ := List.append_of_mem hjob
  obtain ⟨w, what, rfl, hwait, hn, hsame, hleaves, hperform⟩ := hb.answered hjobs hanswered
  exact ⟨before, after, what, hjobs, hwait, hn, hsame, hleaves, congrArg Prod.snd hperform⟩

/-- Every reachable state is valid. -/
theorem Reachable.valid (h : Reachable b) : b.Valid := by
  induction h with
  | start h => exact valid_activate h
  | after a _ ih => exact ih.after a

end Workbench

end AsmLens
