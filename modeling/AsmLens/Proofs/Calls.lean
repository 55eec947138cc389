import AsmLens.Proofs.Ends
import AsmLens.Proofs.Textless
import AsmLens.Window.Exchange

/-!
# Calls of the service

A call of the service sends a query and turns the reply into a result that has data or an error. Whatever is
replied, the call gives a result, but for two kinds of replies (`Query.Chokes`): a refusal in the form of a
plain value that has no text, and a list of languages with an extension that has none. And the result has
just one of data and an error, but for the documentation of an instruction in a response without a body
(`Query.IsUnanswered`).
-/

namespace AsmLens

/-- A refusal that nobody can be told of: a plain value without a text, whose response says nothing. -/
def Reply.IsUntellable (reply : Reply) : Prop :=
  ∃ v, reply = .error (.value v) ∧ v.Textless ∧ (Fault.value v).response?.bind Fault.said? = none

theorem Fault.fails_describe_iff (fault : Fault) :
    Fails fault.describe ↔ Reply.IsUntellable (.error fault) := by
  have hvalue : ∀ v, Reply.IsUntellable (.error (.value v)) ↔
      v.Textless ∧ (Fault.value v).response?.bind said? = none := by
    refine fun v => ⟨?_, fun h => ⟨v, rfl, h⟩⟩
    rintro ⟨_, hv, h⟩
    cases hv
    exact h
  unfold describe
  cases hsaid : fault.response?.bind said? with
  | some s =>
    refine ⟨fun h => absurd h (not_fails_ok s), ?_⟩
    rintro ⟨v, hv, -, hnone⟩
    cases hv
    rw [hnone] at hsaid
    nomatch hsaid
  | none =>
    cases fault with
    | value v => exact (v.fails_text_iff).trans ((hvalue v).trans (and_iff_left hsaid)).symm
    | _ => exact ⟨fun h => absurd h (not_fails_ok _), fun ⟨_, hv, _⟩ => nomatch hv⟩

theorem AsmLine.read_eq_error_iff {entry : Json} {fault : Fault} :
    read entry = .error fault ↔ entry = .null ∧ fault = .fieldOfNull "text" := by
  cases entry with
  | null =>
    rw [and_iff_right rfl]
    exact ⟨fun h => (Except.error.inj h).symm, fun h => h ▸ rfl⟩
  | _ => exact ⟨nofun, nofun⟩

namespace Query

variable {α : Type}

/-- What comes of a reply to a query: the data as the service writes it, or an error. -/
def receive (q : Query) (reply : Reply) : Host (Except String (Option Json)) :=
  match q with
  | .languages => do return (← languagesFrom reply).map fun l => some (.arr (l.map Language.toJson))
  | .compilers language => do
    return (← compilersFrom language reply).map fun l => some (.arr (l.map Compiler.toJson))
  | .formatters => do return (← formattersFrom reply).map fun l => some (.arr (l.map Formatter.toJson))
  | .documentation .. => q.fetched reply
  | .compile .. => do return (← q.posted CompileOutput.read reply).map fun o => some o.toJson
  | .format .. => do
    return (← q.posted (fun body => .ok (FormatOutput.read body)) reply).map fun o => some o.toJson

/-- A call of the service: the query is sent, and the reply comes after whatever happens to the window
meanwhile. -/
def call (q : Query) (meanwhile : Window → Window) (reply : Reply) : Host (Except String (Option Json)) := do
  let _ ← q.send
  modify meanwhile
  q.receive reply

def data? : Except String (Option Json) → Option Json
  | .ok data => data
  | .error _ => none

def error? : Except String (Option Json) → Option String
  | .ok _ => none
  | .error e => some e

/-- Just one of data and an error is set in a result. -/
def HasOne (r : Except String (Option Json)) : Prop := (data? r).isSome ≠ (error? r).isSome

theorem hasOne_error (e : String) : HasOne (.error e) := Bool.false_ne_true

theorem hasOne_map {r : Except String α} {f : α → Json} : HasOne (r.map fun a => some (f a)) := by
  cases r with
  | ok a => exact nofun
  | error e => exact hasOne_error e

/-- A reply that a call cannot make a result of. -/
def Chokes (q : Query) (reply : Reply) : Prop :=
  reply.IsUntellable ∨
    q = .languages ∧ ∃ body, reply = .ok body ∧ Catalog.HasObject Language.IsUnreadable body

/-- The documentation of an instruction in a response without a body. -/
def IsUnanswered (q : Query) (reply : Reply) : Prop :=
  ∃ set opcode, q = .documentation set opcode ∧ reply = .ok none

/-! ### What comes of a reply -/

variable {q : Query} {reply : Reply}

theorem fetched_fails_iff (q : Query) (reply : Reply) (w : Window) :
    Ends (q.fetched reply) w (fun r _ => ¬ reply.IsUntellable ∧ ∀ body, r = .ok body ↔ reply = .ok body)
      fun _ _ => reply.IsUntellable := by
  cases reply with
  | ok body =>
    refine .pure ⟨?_, fun body' => ⟨fun h => by cases h; rfl, fun h => by cases h; rfl⟩⟩
    rintro ⟨_, h, -⟩
    nomatch h
  | error fault =>
    have hlog : Gives (q.logFailure fault) w fun _ _ => True := trivial
    refine (Ends.lift hlog).bind (fun _ w₁ _ => ?_) fun _ _ he => he
    refine (Ends.ofExcept _).bind (fun text w₂ h => .pure ⟨?_, fun body => ⟨nofun, nofun⟩⟩) fun e w₂ h => ?_
    · rw [← fault.fails_describe_iff, h.2]
      exact not_fails_ok text
    · exact (fault.fails_describe_iff).1 ⟨e, h.2⟩

theorem fetchedCatalog_fails_iff (q : Query) (what : String) (read : Json → Except Fault (Option α))
    (reply : Reply) (w : Window) :
    Ends (q.fetchedCatalog what read reply) w
      (fun _ _ => ¬ (reply.IsUntellable ∨
        ∃ body, reply = .ok body ∧ Catalog.HasObject (fun entry => Fails (read entry)) body))
      fun _ _ => reply.IsUntellable ∨
        ∃ body, reply = .ok body ∧ Catalog.HasObject (fun entry => Fails (read entry)) body := by
  refine (fetched_fails_iff q reply w).bind (fun r w₁ h => ?_) fun _ _ he => .inl he
  obtain ⟨htellable, hbody⟩ := h
  rw [or_iff_right htellable]
  cases r with
  | error e =>
    refine .pure ?_
    rintro ⟨body, hreply, -⟩
    nomatch (hbody body).2 hreply
  | ok body =>
    have hread : Fails (Catalog.read what read body) ↔
        ∃ body', reply = .ok body' ∧ Catalog.HasObject (fun entry => Fails (read entry)) body' := by
      rw [Catalog.fails_read_iff, (hbody body).1 rfl]
      exact ⟨fun h => ⟨body, rfl, h⟩, fun ⟨_, heq, h⟩ => by cases heq; exact h⟩
    refine (Ends.ofExcept _).mono (fun a _ h => ?_) fun e _ h => hread.1 ⟨e, h.2⟩
    rw [← hread, h.2]
    exact not_fails_ok a

/-- Whatever goes wrong while a result is read is told, as long as it has a wording of its own. -/
theorem posted_fails_iff (q : Query) (read : Option Json → Except Fault (Except String α))
    (hread : ∀ body fault, read body = .error fault → ¬ Reply.IsUntellable (.error fault))
    (reply : Reply) (w : Window) :
    Ends (q.posted read reply) w (fun _ _ => ¬ reply.IsUntellable) fun _ _ => reply.IsUntellable := by
  unfold posted
  cases hresult : reply.bind read with
  | ok result =>
    refine .pure ?_
    rintro ⟨v, rfl, -⟩
    nomatch hresult
  | error fault =>
    have hsame : reply.IsUntellable ↔ Reply.IsUntellable (.error fault) := by
      cases reply with
      | ok body =>
        refine iff_of_false (fun ⟨_, h, _⟩ => nomatch h) (hread body fault hresult)
      | error fault' =>
        cases hresult
        rfl
    rw [hsame, ← fault.fails_describe_iff]
    have hlog : Gives (q.logFailure fault) w fun _ _ => True := trivial
    refine (Ends.lift hlog).bind (fun _ w₁ _ => ?_) fun _ _ he => he
    refine (Ends.ofExcept _).bind (fun text w₂ h => .pure ?_) fun e w₂ h => ⟨e, h.2⟩
    rw [h.2]
    exact not_fails_ok text

theorem tellable_of_read {body : Option Json} {fault : Fault} (h : CompileOutput.read body = .error fault) :
    ¬ Reply.IsUntellable (.error fault) := by
  have hfault : fault = .fieldOfNull "text" := by
    unfold CompileOutput.read at h
    split at h
    · nomatch h
    · split at h
      · nomatch h
      · rename_i entries _
        cases hentries : entries.mapM AsmLine.read with
        | ok lines =>
          rw [hentries] at h
          nomatch h
        | error e =>
          rw [hentries] at h
          cases h
          obtain ⟨entry, -, hentry⟩ := Fails.of_mapM_error hentries
          exact (AsmLine.read_eq_error_iff.1 hentry).2
  rintro ⟨v, hv, -⟩
  rw [hfault] at hv
  nomatch hv

theorem fetchedCatalog_fails_of_total (q : Query) (what : String) (read : Json → Except Fault (Option α))
    (hread : ∀ entry, ¬ Fails (read entry)) (reply : Reply) (w : Window) :
    Ends (q.fetchedCatalog what read reply) w (fun _ _ => ¬ reply.IsUntellable)
      fun _ _ => reply.IsUntellable := by
  have hiff : (reply.IsUntellable ∨
      ∃ body, reply = .ok body ∧ Catalog.HasObject (fun entry => Fails (read entry)) body) ↔
        reply.IsUntellable :=
    or_iff_left fun ⟨_, _, _, _, entry, _, _, h⟩ => hread entry h
  have h := fetchedCatalog_fails_iff q what read reply w
  rw [hiff] at h
  exact h

/-! ### Calls -/

theorem written_ends {P : Prop} {x : Host (Except String α)} {f : α → Json} {w : Window}
    (hx : Ends x w (fun _ _ => ¬ P) fun _ _ => P) (hanswered : ¬ q.IsUnanswered reply) :
    Ends (do return (← x).map fun a => some (f a)) w
      (fun r _ => ¬ P ∧ (HasOne r ↔ ¬ q.IsUnanswered reply)) fun _ _ => P :=
  hx.bind (fun _ _ hr => .pure ⟨hr, iff_of_true hasOne_map hanswered⟩) fun _ _ he => he

theorem receive_ends (q : Query) (reply : Reply) (w : Window) :
    Ends (q.receive reply) w
      (fun r _ => ¬ q.Chokes reply ∧ (HasOne r ↔ ¬ q.IsUnanswered reply)) fun _ _ => q.Chokes reply := by
  have hanswered : (∀ set opcode, q ≠ .documentation set opcode) → ¬ q.IsUnanswered reply :=
    fun hq ⟨set, opcode, heq, _⟩ => hq set opcode heq
  have hchokes : q ≠ .languages → (q.Chokes reply ↔ reply.IsUntellable) := fun hq =>
    or_iff_left fun h => hq h.1
  cases q with
  | languages =>
    have h := fetchedCatalog_fails_iff .languages "languages" Language.read reply w
    simp only [Language.fails_read_iff] at h
    have hiff : Query.languages.Chokes reply ↔ _ := or_congr_right (and_iff_right rfl)
    rw [← hiff] at h
    exact written_ends h (hanswered nofun)
  | compilers language =>
    rw [hchokes nofun]
    exact written_ends (fetchedCatalog_fails_of_total (.compilers language) "compilers" Compiler.read
      (fun _ => not_fails_ok _) reply w) (hanswered nofun)
  | formatters =>
    rw [hchokes nofun]
    exact written_ends (fetchedCatalog_fails_of_total .formatters "formatters" Formatter.read
      (fun _ => not_fails_ok _) reply w) (hanswered nofun)
  | documentation set opcode =>
    rw [hchokes nofun]
    have h := fetched_fails_iff (.documentation set opcode) reply w
    refine h.mono (fun r _ h => ⟨h.1, ?_⟩) fun _ _ he => he
    obtain ⟨-, hbody⟩ := h
    -- A response without a body is the only one that leaves both fields unset.
    have hnone : Query.IsUnanswered (.documentation set opcode) reply ↔ r = .ok none :=
      ⟨fun ⟨_, _, _, h⟩ => (hbody none).2 h, fun h => ⟨set, opcode, rfl, (hbody none).1 h⟩⟩
    rw [hnone]
    rcases r with e | (_ | body)
    · exact iff_of_true (hasOne_error e) nofun
    · exact iff_of_false (fun h => h rfl) fun h => h rfl
    · exact iff_of_true nofun nofun
  | compile compiler source language arguments =>
    rw [hchokes nofun]
    exact written_ends (posted_fails_iff (.compile compiler source language arguments) CompileOutput.read
      (fun _ _ => tellable_of_read) reply w) (hanswered nofun)
  | format formatter source style =>
    rw [hchokes nofun]
    exact written_ends (posted_fails_iff (.format formatter source style)
      (fun body => .ok (FormatOutput.read body)) (fun _ _ h => nomatch h) reply w) (hanswered nofun)

/-- A call gives a result just when the reply can be made one of, and then the result has just one of data
and an error, but for documentation without a body. -/
theorem call_resolves_iff (q : Query) (meanwhile : Window → Window) (reply : Reply) (w : Window) :
    Ends (q.call meanwhile reply) w
      (fun r _ => ¬ q.Chokes reply ∧ (HasOne r ↔ ¬ q.IsUnanswered reply)) fun _ _ => q.Chokes reply := by
  have hsend : Gives q.send w fun _ _ => True := trivial
  refine (Ends.lift hsend).bind (fun _ w₁ _ => ?_) fun _ _ he => he
  exact (Ends.modify meanwhile).bind (fun _ w₂ _ => q.receive_ends reply w₂) fun _ _ he => he

/-- A list with a language that has an extension without a text. -/
def hiddenExtension : Reply :=
  .ok (some (.arr [.obj [("id", .str "x"), ("extensions", .arr [.obj [("toString", .num 1)]])]]))

/-- A call for the languages fails. -/
theorem languages_reject : ¬ ∀ (q : Query) (meanwhile : Window → Window) (reply : Reply) (w : Window),
    Ends (q.call meanwhile reply) w (fun r _ => HasOne r) fun _ _ => False := by
  intro hall
  have hfails : ((call .languages id hiddenExtension).run ({} : Window)).1.isOk = false := by decide +kernel
  have hends := hall .languages id hiddenExtension {}
  unfold Ends Gives at hends
  generalize (call .languages id hiddenExtension).run ({} : Window) = r at hends hfails
  obtain ⟨r | e, w⟩ := r
  · exact hends
  · nomatch hfails

end Query

end AsmLens
