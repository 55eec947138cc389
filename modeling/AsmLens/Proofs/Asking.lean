import AsmLens.Proofs.Ends
import AsmLens.Proofs.Faults
import AsmLens.Window.Exchange
import AsmLens.Window.Message
import AsmLens.Window.Prompt

/-!
# Asking in the window

Most of what a command does is to log, to show messages and prompts, and to send requests. All this
is in the frame `Window.Asks`: documents, panes and compiler messages stay as they are, and requests,
prompts and messages are only added. `Window.Quiet` says that moreover no message was shown, and
`Window.Told` that just one was, about an error.

For each function there is one lemma here that says how it ends, from any window.
-/

namespace AsmLens

def Event.isMessage : Event → Bool
  | .message _ _ _ _ _ => true
  | _ => false

def Event.isDecoration : Event → Bool
  | .decorationType _ _ => true
  | .decorationTypeDisposed _ => true
  | .decorated _ _ _ => true
  | _ => false

/-- The messages that were shown so far, in order. -/
def Window.shown (w : Window) : List Event := w.events.filter Event.isMessage

/-- All that was done about decorations so far, in order. -/
def Window.painted (w : Window) : List Event := w.events.filter Event.isDecoration

/-- Only requests, prompts, messages and log entries were added, and calls that were to fail may have
failed. -/
structure Window.Asks (w w' : Window) : Prop where
  settings : w'.settings = w.settings
  environment : w'.environment = w.environment
  documents : w'.documents = w.documents
  panes : w'.panes = w.panes
  active : w'.active = w.active
  decorationTypes : w'.decorationTypes = w.decorationTypes
  events : w.events <+: w'.events
  painted : w'.painted = w.painted
  diagnostics : w'.diagnostics = w.diagnostics
  requests : w.requests <+: w'.requests
  prompts : w.prompts <+: w'.prompts
  messages : w.messages ≤ w'.messages
  unarmed : ∀ call, w.failures.get? call = none → w'.failures.get? call = none

/-- As `Asks`, and no message was shown. -/
structure Window.Quiet (w w' : Window) : Prop extends Window.Asks w w' where
  shown : w'.shown = w.shown

/-- As `Asks`, and the one message that was shown is about an error. -/
structure Window.Told (w w' : Window) : Prop extends Window.Asks w w' where
  shown : ∃ n text, w'.shown = w.shown ++ [.message n .error text false []]

namespace Window

variable {w w' w'' : Window}

instance : Frame Asks where
  refl _ := ⟨rfl, rfl, rfl, rfl, rfl, rfl, List.prefix_rfl, rfl, rfl, List.prefix_rfl, List.prefix_rfl,
    Nat.le_refl _, fun _ h => h⟩
  trans h h' := ⟨h'.settings.trans h.settings, h'.environment.trans h.environment,
    h'.documents.trans h.documents, h'.panes.trans h.panes, h'.active.trans h.active,
    h'.decorationTypes.trans h.decorationTypes, h.events.trans h'.events, h'.painted.trans h.painted,
    h'.diagnostics.trans h.diagnostics, h.requests.trans h'.requests, h.prompts.trans h'.prompts,
    Nat.le_trans h.messages h'.messages, fun call hc => h'.unarmed call (h.unarmed call hc)⟩

instance : Frame Quiet where
  refl _ := ⟨Frame.refl _, rfl⟩
  trans h h' := ⟨Frame.trans h.toAsks h'.toAsks, h'.shown.trans h.shown⟩

theorem Asks.armed (h : Asks w w') {call : HostCall} (harmed : (w'.failures.get? call).isSome) :
    (w.failures.get? call).isSome := by
  rw [Option.isSome_iff_ne_none] at harmed ⊢
  exact fun hnone => harmed (h.unarmed call hnone)

theorem Quiet.told (h : Quiet w w') (h' : Told w' w'') : Told w w'' := by
  obtain ⟨n, text, hs⟩ := h'.shown
  exact ⟨Frame.trans h.toAsks h'.toAsks, n, text, by rw [hs, h.shown]⟩

end Window

open Window

/-! ### Logging -/

theorem filter_concat_of_false {p : Event → Bool} {e : Event} (h : p e = false) (events : List Event) :
    (events ++ [e]).filter p = events.filter p := by
  rw [List.filter_append, List.filter_cons_of_neg (by simp [h]), List.filter_nil, List.append_nil]

theorem emit_quiet (e : Event) (h : e.isMessage = false) (hd : e.isDecoration = false) :
    Within Quiet (emit e) := fun w =>
  ⟨⟨rfl, rfl, rfl, rfl, rfl, rfl, List.prefix_append _ _, filter_concat_of_false hd w.events, rfl, List.prefix_rfl,
    List.prefix_rfl, Nat.le_refl _, fun _ hc => hc⟩, filter_concat_of_false h w.events⟩

theorem log_quiet (texts : List String) : Within Quiet (log texts) := emit_quiet _ rfl rfl

theorem logError_quiet (text : String) (cause : Option Fault) : Within Quiet (logError text cause) :=
  emit_quiet _ rfl rfl

/-- A call that was made to fail does so, and would not fail again. -/
theorem attempt_exactly (call : HostCall) (w : Window) :
    Ends (attempt call) w (fun _ w' => w' = w ∧ w.failures.get? call = none) fun e w' =>
      w' = { w with failures := w.failures.remove call } ∧ e.HasMessage ∧
        (w.failures.get? call).isSome := by
  refine .look ?_
  cases h : w.failures.get? call with
  | none => exact .pure ⟨rfl, rfl⟩
  | some message =>
    refine (Ends.set _).bind (fun _ w' hw => .throw ?_) fun e w' he => he
    exact ⟨hw, Fault.hasMessage_ofMessage message, rfl⟩

theorem Window.unarmed_remove (w : Window) {call c : HostCall} (h : w.failures.get? c = none) :
    (w.failures.remove call).get? c = none := by
  rw [Table.get?_remove, h, ite_self]

theorem Window.quiet_remove (w : Window) (call : HostCall) :
    Quiet w { w with failures := w.failures.remove call } :=
  ⟨⟨rfl, rfl, rfl, rfl, rfl, rfl, List.prefix_rfl, rfl, rfl, List.prefix_rfl, List.prefix_rfl, Nat.le_refl _,
    fun _ h => w.unarmed_remove h⟩, rfl⟩

theorem attempt_ends (call : HostCall) (w : Window) :
    Ends (attempt call) w (fun _ w' => w' = w ∧ w.failures.get? call = none)
      fun e w' => Quiet w w' ∧ e.HasMessage ∧ (w.failures.get? call).isSome := by
  refine (attempt_exactly call w).mono (fun _ _ h => h) ?_
  rintro e w' ⟨rfl, he⟩
  exact ⟨w.quiet_remove call, he⟩

/-! ### Messages -/

theorem Message.showMessage_ends (kind : MessageKind) (text : String) (actions : List String)
    (w : Window) :
    Ends (showMessage kind text actions) w
      (fun n w' => Asks w w' ∧ n = w.messages ∧ w'.messages = n + 1 ∧
        w'.shown = w.shown ++ [.message n kind text false actions] ∧
        w.failures.get? (callOf kind) = none)
      fun e w' => Quiet w w' ∧ e.HasMessage ∧ (w.failures.get? (callOf kind)).isSome := by
  refine (attempt_ends (callOf kind) w).bind (fun _ w' hw => ?_) fun e w' he => he
  obtain ⟨rfl, hunarmed⟩ := hw
  show Asks w' _ ∧ _ = _ ∧ _ = _ ∧ _ = _ ∧ _
  refine ⟨⟨rfl, rfl, rfl, rfl, rfl, rfl, List.prefix_append _ _, filter_concat_of_false rfl w'.events, rfl,
    List.prefix_rfl, List.prefix_rfl, Nat.le_succ _, fun _ hc => hc⟩, rfl, rfl, ?_, hunarmed⟩
  exact List.filter_append _ _

theorem Message.tellError_ends (text : String) (w : Window) :
    Ends (tellError text) w
      (fun _ w' => Told w w' ∧ (∃ n, w'.shown = w.shown ++ [.message n .error text false []]) ∧
        w.failures.get? .showError = none)
      fun e w' => Quiet w w' ∧ e.HasMessage ∧ (w.failures.get? .showError).isSome := by
  have hlog : Gives (logError text none) w fun _ w₁ => Quiet w w₁ ∧ w₁.failures = w.failures :=
    ⟨logError_quiet text none w, rfl⟩
  refine (Ends.lift hlog).bind (fun _ w₁ h => ?_) fun e w' he => he
  obtain ⟨h₁, hfailures⟩ := h
  refine (Message.showMessage_ends .error text [] w₁).discard.mono ?_ ?_
  · rintro _ w' ⟨n, hasks, -, -, hshown, hunarmed⟩
    exact ⟨h₁.told ⟨hasks, n, text, hshown⟩, ⟨n, by rw [hshown, h₁.shown]⟩, hfailures ▸ hunarmed⟩
  · rintro e w' ⟨hquiet, hmessage, harmed⟩
    exact ⟨Frame.trans h₁ hquiet, hmessage, h₁.armed harmed⟩

theorem Message.tellDone_ends (text : String) (w : Window) :
    Ends (tellDone text) w
      (fun _ w' => Asks w w' ∧ ∃ n, w'.shown = w.shown ++ [.message n .information text false []])
      fun _ w' => Quiet w w' ∧ (w.failures.get? .showInformation).isSome := by
  refine (Ends.lift (log_quiet [text] w)).bind (fun _ w₁ h₁ => ?_) fun e w' he => he
  refine (Message.showMessage_ends .information text [] w₁).discard.mono ?_ ?_
  · rintro _ w' ⟨n, hasks, -, -, hshown, -⟩
    exact ⟨Frame.trans h₁.toAsks hasks, n, by rw [hshown, h₁.shown]⟩
  · rintro e w' ⟨hquiet, -, harmed⟩
    exact ⟨Frame.trans h₁ hquiet, h₁.armed harmed⟩

theorem Message.showLink_ends (text : String) (link : Option Json) (action : String) (w : Window) :
    Ends (showLink text link action) w
      (fun n w' => Asks w w' ∧ ∀ k ∈ n, k = w.messages ∧ k < w'.messages)
      fun _ w' => Asks w w' := by
  unfold showLink
  split
  · refine (showMessage_ends .information text [action] w).bind (fun n w' h => .pure ?_)
      fun e w' he => he.1.toAsks
    obtain ⟨hasks, hn, hnext, -⟩ := h
    refine ⟨hasks, fun k hk => ?_⟩
    cases hk
    exact ⟨hn, by omega⟩
  · refine (showMessage_ends .information text [] w).discard.bind (fun _ w' h => .pure ?_)
      fun e w' he => he.1.toAsks
    obtain ⟨n, hasks, -⟩ := h
    exact ⟨hasks, fun k hk => nomatch hk⟩

theorem Message.followLink_ends (link : Option Json) (action : String) (chosen : Option String)
    (w : Window) :
    Ends (followLink link action chosen) w (fun _ w' => Quiet w w') fun _ w' => Quiet w w' := by
  unfold followLink
  split
  · exact .pure (Frame.refl w)
  · split
    · refine (attempt_ends .openOutside w).bind (fun _ w' hw => ?_) fun e w' he => he.1
      obtain ⟨rfl, -⟩ := hw
      exact .lift (emit_quiet _ rfl rfl w')
    · exact .throw (Frame.refl w)

/-! ### Prompts -/

theorem Prompt.create_ends (call : HostCall) (kind : PromptKind) (w : Window) :
    Ends (create call kind) w
      (fun n w' => Quiet w w' ∧ n = w.prompts.length ∧ w'.prompts = w.prompts ++ [⟨kind, .made⟩])
      fun e w' => Quiet w w' ∧ e.HasMessage := by
  refine (attempt_ends call w).bind (fun _ w' hw => ?_) fun e w' he => ⟨he.1, he.2.1⟩
  obtain ⟨rfl, -⟩ := hw
  show Quiet w' _ ∧ _ = _ ∧ _ = _
  exact ⟨⟨⟨rfl, rfl, rfl, rfl, rfl, rfl, List.prefix_rfl, rfl, rfl, List.prefix_rfl, List.prefix_append _ _,
    Nat.le_refl _, fun _ hc => hc⟩, rfl⟩, rfl, rfl⟩

theorem modify_newest {α : Type} (l : List α) (a : α) (f : α → α) :
    (l ++ [a]).modify l.length f = l ++ [f a] := by
  induction l with
  | nil => rfl
  | cons b l ih => simp [ih]

theorem Prompt.display_gives (e : Event) (he : e.isMessage = false) (hd : e.isDecoration = false)
    {w w' : Window} {kind : PromptKind} (hquiet : Quiet w w')
    (hprompts : w'.prompts = w.prompts ++ [⟨kind, .made⟩]) :
    Gives (display w.prompts.length e) w' fun _ w'' => Quiet w w'' ∧
      w''.prompts = w.prompts ++ [⟨kind, .shown⟩] := by
  have hshown : (w'.prompts.modify w.prompts.length fun p => { p with state := .shown }) =
      w.prompts ++ [⟨kind, .shown⟩] := by
    rw [hprompts, modify_newest]
  show Quiet w _ ∧ _ = _
  refine ⟨⟨⟨hquiet.settings, hquiet.environment, hquiet.documents, hquiet.panes, hquiet.active,
    hquiet.decorationTypes, hquiet.events.trans (List.prefix_append _ _),
    (filter_concat_of_false hd w'.events).trans hquiet.painted, hquiet.diagnostics, hquiet.requests, ?_,
    hquiet.messages, hquiet.unarmed⟩,
    (filter_concat_of_false he w'.events).trans hquiet.shown⟩, hshown⟩
  exact ⟨_, hshown.symm⟩

theorem Prompt.askChoice_ends (question template : String) (items : List Json) (w : Window) :
    Ends (askChoice question template items) w
      (fun n w' => Quiet w w' ∧ n = w.prompts.length ∧
        w'.prompts = w.prompts ++ [⟨.choice items.length, .shown⟩])
      fun e w' => Quiet w w' ∧ e.HasMessage := by
  refine (create_ends _ _ w).bind (fun n w₁ h₁ => ?_) fun e w' he => he
  obtain ⟨hquiet, rfl, hprompts⟩ := h₁
  refine (Ends.ofExcept _).bind (fun labels w' hw => ?_) ?_
  · obtain ⟨rfl, -⟩ := hw
    refine (Ends.lift (display_gives _ rfl rfl hquiet hprompts)).bind (fun _ w' h => .pure ?_)
      fun e w' he => he
    exact ⟨h.1, rfl, h.2⟩
  · rintro e w' ⟨rfl, he⟩
    exact ⟨hquiet, Tellable.mapM items (fun item _ => Template.tellable_label template item) e he⟩

theorem Prompt.askText_ends (question value : String) (w : Window) :
    Ends (askText question value) w
      (fun n w' => Quiet w w' ∧ n = w.prompts.length ∧
        w'.prompts = w.prompts ++ [⟨.text value, .shown⟩])
      fun e w' => Quiet w w' ∧ e.HasMessage := by
  refine (create_ends _ _ w).bind (fun n w₁ h₁ => ?_) fun e w' he => he
  obtain ⟨hquiet, rfl, hprompts⟩ := h₁
  refine (Ends.lift (display_gives _ rfl rfl hquiet hprompts)).bind (fun _ w' h => .pure ?_)
    fun e w' he => he
  exact ⟨h.1, rfl, h.2⟩

/-! ### Queries -/

theorem Query.send_gives (q : Query) (w : Window) :
    Gives q.send w fun n w' => Quiet w w' ∧ n = w.requests.length ∧
      w'.requests = w.requests ++ [true] := by
  show Quiet w _ ∧ _ = _ ∧ _ = _
  have hsent : ∀ p : Event → Bool, (∀ texts, p (.log texts) = false) → (∀ n r, p (.request n r) = false) →
      (q.send w).2.events.filter p = w.events.filter p := fun p hlog hrequest =>
    (filter_concat_of_false (hrequest _ _) _).trans (filter_concat_of_false (hlog _) w.events)
  exact ⟨⟨⟨rfl, rfl, rfl, rfl, rfl, rfl, (List.prefix_append _ _).trans (List.prefix_append _ _),
    hsent _ (fun _ => rfl) fun _ _ => rfl, rfl, List.prefix_append _ _, List.prefix_rfl, Nat.le_refl _,
    fun _ hc => hc⟩, hsent _ (fun _ => rfl) fun _ _ => rfl⟩, rfl, rfl⟩

theorem Query.fetched_ends (q : Query) (reply : Reply) (w : Window) :
    Ends (q.fetched reply) w (fun _ w' => Quiet w w') fun e w' => Quiet w w' ∧ e.HasMessage := by
  cases reply with
  | ok body => exact .pure (Frame.refl w)
  | error fault =>
    refine (Ends.lift (logError_quiet _ _ w)).bind (fun _ w₁ h₁ => ?_) fun e w' he => he
    refine (Ends.ofExcept _).bind (fun text w' hw => ?_) ?_
    · obtain ⟨rfl, -⟩ := hw
      exact .pure h₁
    · rintro e w' ⟨rfl, he⟩
      exact ⟨h₁, fault.tellable_describe e he⟩

theorem Query.fetchedCatalog_ends {α : Type} (q : Query) (what : String)
    {read : Json → Except Fault (Option α)} (hread : ∀ v, Tellable (read v)) (reply : Reply)
    (w : Window) :
    Ends (q.fetchedCatalog what read reply) w (fun _ w' => Quiet w w')
      fun e w' => Quiet w w' ∧ e.HasMessage := by
  refine (fetched_ends q reply w).bind (fun r w₁ h₁ => ?_) fun e w' he => he
  cases r with
  | error e => exact .pure h₁
  | ok body =>
    refine (Ends.ofExcept _).mono ?_ ?_
    · rintro r w' ⟨rfl, -⟩
      exact h₁
    · rintro e w' ⟨rfl, he⟩
      exact ⟨h₁, Catalog.tellable_read hread what body e he⟩

theorem Query.languagesFrom_ends (reply : Reply) (w : Window) :
    Ends (languagesFrom reply) w (fun _ w' => Quiet w w') fun e w' => Quiet w w' ∧ e.HasMessage :=
  fetchedCatalog_ends .languages "languages" Language.tellable_read reply w

theorem Query.compilersFrom_ends (language : String) (reply : Reply) (w : Window) :
    Ends (compilersFrom language reply) w (fun _ w' => Quiet w w')
      fun e w' => Quiet w w' ∧ e.HasMessage :=
  fetchedCatalog_ends (.compilers language) "compilers" (fun _ => .ok _) reply w

theorem Query.formattersFrom_ends (reply : Reply) (w : Window) :
    Ends (formattersFrom reply) w (fun _ w' => Quiet w w') fun e w' => Quiet w w' ∧ e.HasMessage :=
  fetchedCatalog_ends .formatters "formatters" (fun _ => .ok _) reply w

theorem Query.posted_ends {α : Type} (q : Query) (read : Option Json → Except Fault (Except String α))
    (reply : Reply) (w : Window) :
    Ends (q.posted read reply) w
      (fun r w' => Quiet w w' ∧ ∀ a, (r = .ok a ↔ reply.bind read = .ok (.ok a)) ∧ (r = .ok a → w' = w))
      fun e w' => Quiet w w' ∧ e.HasMessage ∧ ∀ a, reply.bind read ≠ .ok (.ok a) := by
  unfold posted
  cases h : reply.bind read with
  | ok result =>
    refine .pure ⟨Frame.refl w, fun a => ?_⟩
    exact ⟨⟨fun ha => by rw [ha], fun ha => Except.ok.inj ha⟩, fun _ => rfl⟩
  | error fault =>
    refine (Ends.lift (logError_quiet _ _ w)).bind (fun _ w₁ h₁ => ?_) fun e w' he => he
    refine (Ends.ofExcept _).bind (fun text w' hw => ?_) ?_
    · obtain ⟨rfl, -⟩ := hw
      exact .pure ⟨h₁, fun a => ⟨⟨nofun, nofun⟩, nofun⟩⟩
    · rintro e w' ⟨rfl, he⟩
      exact ⟨h₁, fault.tellable_describe e he, nofun⟩

end AsmLens
