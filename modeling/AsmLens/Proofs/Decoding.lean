import AsmLens.Proofs.Calls

/-!
# What is read from an answer

The service answers with any JSON value. What is read from one is described by the fields that it has
(`Json.ReadsAs`): a field of the kind that is wanted is taken as it is, and anything else gives way to a fallback.

The result of a compiler is read from every object with an assembly without nothings in it
(`compile_call_reads_output`), and a catalog from every list: one item for each entry that is an object with an
identifier, in their order (`catalog_calls_read_entries`). What was read reads back as itself, when it is written
down and answered again.
-/

namespace AsmLens

variable {α β : Type}

/-! ### Fields -/

namespace Json

theorem items?_eq_some_iff {v : Json} {items : List Json} : v.items? = some items ↔ v = .arr items := by
  cases v <;> simp [items?]

/-- What is read from a field: the value that it holds, as one of the kind that `make` makes. A field that is
missing, or of another kind, is read as the fallback. -/
def ReadsAs (make : α → Json) (fallback : α) (field : Option Json) (a : α) : Prop :=
  field = some (make a) ∨ (∀ b, field ≠ some (make b)) ∧ a = fallback

theorem readsAs_getD {make : α → Json} {kind? : Json → Option α} (hkind : ∀ {v a}, kind? v = some a ↔ v = make a)
    (field : Option Json) (fallback : α) : ReadsAs make fallback field ((field.bind kind?).getD fallback) := by
  cases h : field.bind kind? with
  | some a =>
    obtain ⟨v, hfield, hv⟩ := Option.bind_eq_some_iff.1 h
    left
    rw [hfield, hkind.1 hv, Option.getD_some]
  | none =>
    right
    refine ⟨fun b hb => ?_, rfl⟩
    rw [hb, Option.bind_some, hkind.2 rfl] at h
    nomatch h

theorem readsAs_string (v : Json) (name fallback : String) :
    ReadsAs .str fallback (v.field? name) ((v.stringField? name).getD fallback) :=
  readsAs_getD string?_eq_some_iff _ _

theorem readsAs_number (v : Json) (name : String) (fallback : Number) :
    ReadsAs .num fallback (v.field? name) ((v.numberField? name).getD fallback) :=
  readsAs_getD number?_eq_some_iff _ _

theorem readsAs_items (v : Json) (name : String) (fallback : List Json) :
    ReadsAs .arr fallback (v.field? name) ((v.itemsField? name).getD fallback) :=
  readsAs_getD items?_eq_some_iff _ _

theorem readsAs_any (v : Json) (name : String) (fallback : Json) :
    ReadsAs id fallback (v.field? name) ((v.field? name).getD fallback) := by
  cases v.field? name with
  | some field => exact .inl rfl
  | none => exact .inr ⟨nofun, rfl⟩

theorem itemsField?_eq_some_iff {v : Json} {name : String} {items : List Json} :
    v.itemsField? name = some items ↔ v.field? name = some (.arr items) := by
  simp [itemsField?, Option.bind_eq_some_iff, items?_eq_some_iff]

end Json

theorem mapM_map_of_read {write : α → β} {read : β → Except Fault α} (h : ∀ a, read (write a) = .ok a)
    (l : List α) : (l.map write).mapM read = .ok l := by
  rw [mapM_eq_ok_iff, List.forall₂_map_left_iff, List.forall₂_same]
  exact fun a _ => h a

/-! ### Results of compilers -/

/-- A line of assembly says what an entry does: its text and where it came from, as far as it has them. -/
structure AsmLine.Describes (entry : Json) (line : AsmLine) : Prop where
  text : Json.ReadsAs .str "" (entry.field? "text") line.text
  source : Json.ReadsAs id .null (entry.field? "source") line.source

namespace AsmLine

variable {entry : Json} {line : AsmLine}

theorem describes_of_read (h : read entry = .ok line) : Describes entry line := by
  unfold read at h
  split at h
  · nomatch h
  · cases h
    exact ⟨entry.readsAs_string _ _, entry.readsAs_any _ _⟩

theorem read_toJson (line : AsmLine) : read line.toJson = .ok line := rfl

end AsmLine

/-- A body has an assembly: it is an object, and its assembly is a list of anything but nothings. -/
def Json.HasAssembly (body : Json) : Prop :=
  body.isObject = true ∧ ∃ entries, body.field? "asm" = some (.arr entries) ∧ .null ∉ entries

/-- A result says what a body does: each entry of its assembly in its place, and everything else as far as it is
there. -/
structure CompileOutput.Describes (body : Json) (output : CompileOutput) : Prop where
  code : Json.ReadsAs .num 0 (body.field? "code") output.code
  asm : ∃ entries, body.field? "asm" = some (.arr entries) ∧
    List.Forall₂ AsmLine.Describes entries output.asm
  stdout : Json.ReadsAs .arr [] (body.field? "stdout") output.stdout
  stderr : Json.ReadsAs .arr [] (body.field? "stderr") output.stderr

namespace CompileOutput

theorem read_toJson (output : CompileOutput) : read (some output.toJson) = .ok (.ok output) := by
  have hasm : (output.asm.map AsmLine.toJson).mapM AsmLine.read = .ok output.asm :=
    mapM_map_of_read AsmLine.read_toJson output.asm
  have hread : read (some output.toJson) = (do
      return .ok { output with asm := ← (output.asm.map AsmLine.toJson).mapM AsmLine.read }) := rfl
  rw [hread, hasm]
  rfl

theorem read_body (body : Json) :
    (body.HasAssembly ∧ ∃ output, read (some body) = .ok (.ok output) ∧ Describes body output) ∨
      ¬ body.HasAssembly ∧
        (read (some body) = .ok (.error noAssembly) ∨ read (some body) = .error (.fieldOfNull "text")) := by
  unfold read
  cases hobject : body.isObject with
  | false =>
    right
    refine ⟨fun h => Bool.false_ne_true (hobject.symm.trans h.1), .inl ?_⟩
    rw [Option.filter_some, hobject]
    rfl
  | true =>
    rw [Option.filter_some, if_pos hobject]
    dsimp only
    cases hentries : body.itemsField? "asm" with
    | none =>
      right
      refine ⟨?_, .inl rfl⟩
      rintro ⟨-, entries, hasm, -⟩
      rw [Json.itemsField?_eq_some_iff.2 hasm] at hentries
      nomatch hentries
    | some entries =>
      have hasm := Json.itemsField?_eq_some_iff.1 hentries
      dsimp only
      cases hlines : entries.mapM AsmLine.read with
      | ok lines =>
        left
        have hnulls : .null ∉ entries := by
          intro hnull
          have hfails : Fails (entries.mapM AsmLine.read) := Fails.mapM_iff.2 ⟨.null, hnull, fails_error _⟩
          rw [hlines] at hfails
          exact not_fails_ok lines hfails
        refine ⟨⟨hobject, entries, hasm, hnulls⟩, _, rfl, ?_⟩
        refine ⟨body.readsAs_number _ _, ⟨entries, hasm, ?_⟩, body.readsAs_items _ _, body.readsAs_items _ _⟩
        exact (mapM_eq_ok_iff.1 hlines).imp fun entry line => AsmLine.describes_of_read
      | error fault =>
        right
        obtain ⟨entry, hentry, hfault⟩ := Fails.of_mapM_error hlines
        obtain ⟨rfl, rfl⟩ := AsmLine.read_eq_error_iff.1 hfault
        refine ⟨?_, .inr rfl⟩
        rintro ⟨-, entries', hasm', hnulls⟩
        cases hasm.symm.trans hasm'
        exact hnulls hentry

end CompileOutput

namespace Query

theorem call_ends {q : Query} {reply : Reply} {Q : Except String (Option Json) → Prop} {F : Fault → Prop}
    (h : ∀ w, Ends (q.receive reply) w (fun r _ => Q r) fun e _ => F e) (meanwhile : Window → Window) (w : Window) :
    Ends (q.call meanwhile reply) w (fun r _ => Q r) fun e _ => F e := by
  have hsend : Gives q.send w fun _ _ => True := trivial
  refine (Ends.lift hsend).bind (fun _ w₁ _ => ?_) fun _ _ he => he
  exact (Ends.modify meanwhile).bind (fun _ w₂ _ => h w₂) fun _ _ he => he

theorem posted_of_read {q : Query} {read : Option Json → Except Fault (Except String α)} {reply : Reply}
    {result : Except String α} (h : reply.bind read = .ok result) : q.posted read reply = pure result := by
  unfold posted
  rw [h]

theorem posted_of_fault {q : Query} {read : Option Json → Except Fault (Except String α)} {reply : Reply}
    {fault : Fault} {text : String} (h : reply.bind read = .error fault) (htext : fault.describe = .ok text)
    (w : Window) : Ends (q.posted read reply) w (fun r _ => r = .error text) fun _ _ => False := by
  unfold posted
  rw [h]
  have hlog : Gives (q.logFailure fault) w fun _ _ => True := trivial
  refine (Ends.lift hlog).bind (fun _ w₁ _ => ?_) fun _ _ he => he
  rw [htext]
  exact .pure rfl

theorem posted_body (q : Query) (body : Json) (w : Window) :
    Ends (q.posted CompileOutput.read (.ok (some body))) w
      (fun r _ => (body.HasAssembly ∧ ∃ output, r = .ok output ∧ CompileOutput.Describes body output) ∨
        ¬ body.HasAssembly ∧ ∃ e, r = .error e)
      fun _ _ => False := by
  have hbind : (Except.ok (some body) : Reply).bind CompileOutput.read = CompileOutput.read (some body) := rfl
  obtain ⟨hassembly, output, hread, hdescribes⟩ | ⟨hnone, hread | hread⟩ := CompileOutput.read_body body
  · rw [posted_of_read (hbind.trans hread)]
    exact .pure (.inl ⟨hassembly, output, rfl, hdescribes⟩)
  · rw [posted_of_read (hbind.trans hread)]
    exact .pure (.inr ⟨hnone, _, rfl⟩)
  · refine (posted_of_fault (hbind.trans hread) rfl w).mono (fun r _ h => ?_) fun _ _ he => he
    exact .inr ⟨hnone, _, h⟩

/-- Whatever body comes for a source that was sent, the call gives a result, and an error just if the body has no
assembly. The data of a result says what the body does, and it is data of itself. -/
theorem compile_call_reads_output (compiler source language : String) (arguments : Option String) (body : Json)
    (meanwhile : Window → Window) (w : Window) :
    Ends ((Query.compile compiler source language arguments).call meanwhile (.ok (some body))) w
      (fun r _ => ((∃ e, r = .error e) ↔ ¬ body.HasAssembly) ∧
        ∀ data, r = .ok data → ∃ output, data = some (CompileOutput.toJson output) ∧
          CompileOutput.Describes body output ∧
            ∀ meanwhile' w', Ends ((Query.compile compiler source language arguments).call meanwhile' (.ok data)) w'
              (fun r' _ => r' = .ok data) fun _ _ => False)
      fun _ _ => False := by
  refine call_ends (fun w₁ => ?_) meanwhile w
  refine (posted_body _ body w₁).bind (fun r w₂ h => .pure ?_) fun _ _ he => he
  obtain ⟨hassembly, output, rfl, hdescribes⟩ | ⟨hnone, e, rfl⟩ := h
  · refine ⟨⟨nofun, fun h => absurd hassembly h⟩, ?_⟩
    rintro _ ⟨⟩
    refine ⟨output, rfl, hdescribes, call_ends fun w' => ?_⟩
    have hagain : (Except.ok (some output.toJson) : Reply).bind CompileOutput.read = .ok (.ok output) :=
      CompileOutput.read_toJson output
    show Ends (do return (← posted _ CompileOutput.read _).map fun o => some o.toJson) w' _ _
    rw [posted_of_read hagain]
    exact .pure rfl
  · exact ⟨⟨fun _ => hnone, fun _ => ⟨e, rfl⟩⟩, nofun⟩

end Query

/-! ### Entries of catalogs -/

/-- An entry is an object with an identifier, which stands under the name `key`. -/
def Json.isNamed (key : String) (entry : Json) : Bool := entry.isObject && (entry.stringField? key).isSome

/-- A language says what an entry does. All its extensions are written as texts. -/
structure Language.Describes (entry : Json) (l : Language) : Prop where
  id : entry.field? "id" = some (.str l.id)
  name : Json.ReadsAs .str l.id (entry.field? "name") l.name
  extensions : ∃ listed, Json.ReadsAs .arr [] (entry.field? "extensions") listed ∧
    List.Forall₂ (fun v text => v.text = .ok text) listed l.extensions
  monaco : ∀ text, l.monaco = some text ↔ entry.field? "monaco" = some (.str text)

/-- A compiler says what an entry does. -/
structure Compiler.Describes (entry : Json) (c : Compiler) : Prop where
  id : entry.field? "id" = some (.str c.id)
  name : Json.ReadsAs .str c.id (entry.field? "name") c.name
  lang : Json.ReadsAs .str "" (entry.field? "lang") c.lang
  compilerType : ∀ text, c.compilerType = some text ↔ entry.field? "compilerType" = some (.str text)
  semver : ∀ text, c.semver = some text ↔ entry.field? "semver" = some (.str text)
  instructionSet : ∀ text, c.instructionSet = some text ↔ entry.field? "instructionSet" = some (.str text)

/-- A formatter says what an entry does. Its styles are those among the ones listed that are texts. -/
structure Formatter.Describes (entry : Json) (f : Formatter) : Prop where
  exe : Json.ReadsAs .str "" (entry.field? "exe") f.exe
  name : Json.ReadsAs .str f.type (entry.field? "name") f.name
  styles : ∃ listed, Json.ReadsAs .arr [] (entry.field? "styles") listed ∧
    f.styles = listed.filterMap Json.string?
  type : entry.field? "type" = some (.str f.type)
  version : Json.ReadsAs .str "" (entry.field? "version") f.version

/-- A kind of entries. An entry without an identifier is left out, what is read from any other one describes it,
and what is written of an item reads back as the item. -/
structure Catalog.IsKind (key : String) (read : Json → Except Fault (Option α)) (Describes : Json → α → Prop)
    (toJson : α → Json) : Prop where
  isSome : ∀ {entry item?}, read entry = .ok item? → (entry.stringField? key).isSome = item?.isSome
  describes : ∀ {entry item}, read entry = .ok (some item) → Describes entry item
  isObject : ∀ item, (toJson item).isObject = true
  read_toJson : ∀ item, read (toJson item) = .ok (some item)

theorem Language.of_read {entry : Json} {item? : Option Language} (h : read entry = .ok item?) :
    (entry.stringField? "id").isSome = item?.isSome ∧ ∀ l ∈ item?, Describes entry l := by
  unfold read at h
  cases hid : entry.stringField? "id" with
  | none =>
    rw [hid] at h
    cases h
    exact ⟨rfl, nofun⟩
  | some id =>
    rw [hid] at h
    obtain ⟨extensions, hextensions, ⟨⟩⟩ := bind_eq_ok_iff.1 h
    refine ⟨rfl, ?_⟩
    rintro _ ⟨⟩
    exact ⟨Json.stringField?_eq_some_iff.1 hid, entry.readsAs_string _ _,
      ⟨_, entry.readsAs_items _ _, mapM_eq_ok_iff.1 hextensions⟩, fun _ => Json.stringField?_eq_some_iff⟩

theorem Language.read_toJson (l : Language) : read l.toJson = .ok (some l) := by
  obtain ⟨id, name, extensions, monaco⟩ := l
  have htext : ∀ text, (Json.str text).text = .ok text := fun text => by rw [Json.text]
  have hextensions : (extensions.map Json.str).mapM Json.text = .ok extensions :=
    mapM_map_of_read htext extensions
  have hread : read (toJson ⟨id, name, extensions, monaco⟩) = (do
      return some ⟨id, name, ← (extensions.map Json.str).mapM Json.text, monaco⟩) := by
    cases monaco <;> rfl
  rw [hread, hextensions]
  rfl

theorem Language.isKind : Catalog.IsKind "id" read Describes toJson :=
  ⟨fun h => (of_read h).1, fun h => (of_read h).2 _ rfl, fun _ => rfl, read_toJson⟩

theorem Compiler.isKind : Catalog.IsKind "id" read Describes toJson where
  isSome := by
    intro entry item? h
    cases h
    rw [Option.isSome_map]
  describes := by
    intro entry c h
    obtain ⟨id, hid, rfl⟩ := Option.map_eq_some_iff.1 (Except.ok.inj h)
    exact ⟨Json.stringField?_eq_some_iff.1 hid, entry.readsAs_string _ _, entry.readsAs_string _ _,
      fun _ => Json.stringField?_eq_some_iff, fun _ => Json.stringField?_eq_some_iff,
      fun _ => Json.stringField?_eq_some_iff⟩
  isObject _ := rfl
  read_toJson := by
    intro c
    obtain ⟨id, name, lang, compilerType, semver, instructionSet⟩ := c
    cases compilerType <;> cases semver <;> cases instructionSet <;> rfl

theorem Formatter.isKind : Catalog.IsKind "type" read Describes toJson where
  isSome := by
    intro entry item? h
    cases h
    rw [Option.isSome_map]
  describes := by
    intro entry f h
    obtain ⟨type, htype, rfl⟩ := Option.map_eq_some_iff.1 (Except.ok.inj h)
    exact ⟨entry.readsAs_string _ _, entry.readsAs_string _ _, ⟨_, entry.readsAs_items _ _, rfl⟩,
      Json.stringField?_eq_some_iff.1 htype, entry.readsAs_string _ _⟩
  isObject _ := rfl
  read_toJson := by
    intro f
    have hstyles : (f.styles.map Json.str).filterMap Json.string? = f.styles := by
      rw [List.filterMap_map]
      exact List.filterMap_some
    have hread : read f.toJson =
        .ok (some { f with styles := (f.styles.map Json.str).filterMap Json.string? }) := rfl
    rw [hread, hstyles]

/-! ### Catalogs -/

namespace Catalog

variable {key what : String} {readEntry : Json → Except Fault (Option α)} {Describes : Json → α → Prop}
  {toJson : α → Json} {entries : List Json} {items : List α} {body : Json}

theorem IsKind.isNamed_of_read (hkind : IsKind key readEntry Describes toJson) {entry : Json} {item? : Option α}
    (h : (if entry.isObject then readEntry entry else .ok none) = .ok item?) : entry.isNamed key = item?.isSome := by
  unfold Json.isNamed
  cases hobject : entry.isObject with
  | false =>
    rw [hobject] at h
    cases h
    rfl
  | true =>
    rw [if_pos hobject] at h
    exact hkind.isSome h

/-- A catalog is read from the entries that have an identifier: each gives an item, in order. -/
theorem IsKind.forall₂_of_collect (hkind : IsKind key readEntry Describes toJson)
    (h : collect readEntry entries = .ok items) :
    List.Forall₂ Describes (entries.filter (Json.isNamed key)) items := by
  rw [collect_eq] at h
  obtain ⟨read, hread, ⟨⟩⟩ := bind_eq_ok_iff.1 h
  refine (forall₂_of_mapM_option (fun _ _ => hkind.isNamed_of_read) hread).imp fun entry item h => ?_
  split at h
  · exact hkind.describes h
  · nomatch h

theorem IsKind.collect_map_toJson (hkind : IsKind key readEntry Describes toJson) (items : List α) :
    collect readEntry (items.map toJson) = .ok items := by
  have hread : (items.map toJson).mapM (fun entry => if entry.isObject then readEntry entry else .ok none) =
      .ok (items.map some) := by
    rw [mapM_eq_ok_iff, List.forall₂_map_left_iff, List.forall₂_map_right_iff, List.forall₂_same]
    intro item _
    rw [if_pos (hkind.isObject item)]
    exact hkind.read_toJson item
  have hitems : (items.map some).filterMap id = items := by
    rw [List.filterMap_map]
    exact List.filterMap_some
  rw [collect_eq, hread]
  exact congrArg Except.ok hitems

theorem read_of_collect (h : collect readEntry entries = .ok items) :
    read what readEntry (some (.arr entries)) = .ok (.ok items) := by
  have hread : read what readEntry (some (.arr entries)) = (do return .ok (← collect readEntry entries)) := rfl
  rw [hread, h]
  rfl

theorem not_fails_read_of_total (h : ∀ entry, ¬ Fails (readEntry entry)) (body : Option Json) :
    ¬ Fails (read what readEntry body) := by
  intro hfails
  obtain ⟨_, _, entry, _, _, hentry⟩ := fails_read_iff.1 hfails
  exact h entry hentry

theorem read_body (h : ¬ Fails (read what readEntry (some body))) :
    (∃ entries items, body = .arr entries ∧ collect readEntry entries = .ok items) ∨
      (∀ entries, body ≠ .arr entries) ∧ ∃ e, read what readEntry (some body) = .ok (.error e) := by
  cases body with
  | arr entries =>
    left
    cases hitems : collect readEntry entries with
    | ok items => exact ⟨entries, items, rfl, hitems⟩
    | error fault => exact absurd (Fails.map_iff.2 ⟨fault, hitems⟩) h
  | _ => exact .inr ⟨nofun, _, rfl⟩

end Catalog

namespace Query

variable {q : Query} {what key : String} {readEntry : Json → Except Fault (Option α)} {Describes : Json → α → Prop}
  {toJson : α → Json}

/-- Whatever happened meanwhile, a call that gets this body gives a result, and an error just if the body is no
list. The data of a result has an item for each entry with an identifier, in order, which says what the entry
does; and it is data of itself. -/
def Decodes (q : Query) (key : String) (Describes : Json → α → Prop) (toJson : α → Json) (body : Json) : Prop :=
  ∀ meanwhile w, Ends (q.call meanwhile (.ok (some body))) w
    (fun r _ => ((∃ e, r = .error e) ↔ ∀ entries, body ≠ .arr entries) ∧
      ∀ data, r = .ok data → ∃ entries items, body = .arr entries ∧ data = some (.arr (items.map toJson)) ∧
        List.Forall₂ Describes (entries.filter (Json.isNamed key)) items ∧
          ∀ meanwhile' w', Ends (q.call meanwhile' (.ok data)) w' (fun r' _ => r' = .ok data) fun _ _ => False)
    fun _ _ => False

theorem fetchedCatalog_of_read {body : Option Json} {result : Except String (List α)}
    (h : Catalog.read what readEntry body = .ok result) (w : Window) :
    Ends (q.fetchedCatalog what readEntry (.ok body)) w (fun r _ => r = result) fun _ _ => False := by
  refine (Ends.ofExcept _).mono (fun r _ hr => ?_) fun e _ he => ?_
  · exact Except.ok.inj (hr.2.symm.trans h)
  · nomatch he.2.symm.trans h

theorem decodes_of_isKind (hkind : Catalog.IsKind key readEntry Describes toJson)
    (hreceive : ∀ reply, q.receive reply = do
      return (← q.fetchedCatalog what readEntry reply).map fun l => some (.arr (l.map toJson)))
    {body : Json} (hbody : ¬ Fails (Catalog.read what readEntry (some body))) :
    q.Decodes key Describes toJson body := by
  have hends : ∀ {body : Json} {result : Except String (List α)},
      Catalog.read what readEntry (some body) = .ok result → ∀ meanwhile w,
        Ends (q.call meanwhile (.ok (some body))) w
          (fun r _ => r = result.map fun l => some (.arr (l.map toJson))) fun _ _ => False := by
    intro body result hread
    refine call_ends fun w => ?_
    rw [hreceive]
    refine (fetchedCatalog_of_read hread w).bind (fun r w₁ hr => .pure ?_) fun _ _ he => he
    rw [hr]
  intro meanwhile w
  obtain ⟨entries, items, rfl, hitems⟩ | ⟨hnone, e, hread⟩ := Catalog.read_body hbody
  · refine (hends (Catalog.read_of_collect hitems) meanwhile w).mono (fun r _ hr => ?_) fun _ _ he => he
    subst hr
    refine ⟨iff_of_false nofun fun h => h entries rfl, ?_⟩
    rintro _ ⟨⟩
    refine ⟨entries, items, rfl, rfl, hkind.forall₂_of_collect hitems, ?_⟩
    exact hends (Catalog.read_of_collect (hkind.collect_map_toJson items))
  · refine (hends hread meanwhile w).mono (fun r _ hr => ?_) fun _ _ he => he
    subst hr
    exact ⟨iff_of_true ⟨e, rfl⟩ hnone, nofun⟩

/-- Every body is decoded as a catalog of compilers or of formatters, and as one of languages unless a language in
it has an extension without a text. -/
theorem catalog_calls_read_entries (body : Json) :
    (∀ language, (Query.compilers language).Decodes "id" Compiler.Describes Compiler.toJson body) ∧
      Query.formatters.Decodes "type" Formatter.Describes Formatter.toJson body ∧
        (¬ Catalog.HasObject Language.IsUnreadable (some body) →
          Query.languages.Decodes "id" Language.Describes Language.toJson body) := by
  refine ⟨fun language => ?_, ?_, fun hbody => ?_⟩
  · exact decodes_of_isKind Compiler.isKind (fun _ => rfl)
      (Catalog.not_fails_read_of_total (fun _ => not_fails_ok _) _)
  · exact decodes_of_isKind Formatter.isKind (fun _ => rfl)
      (Catalog.not_fails_read_of_total (fun _ => not_fails_ok _) _)
  · exact decodes_of_isKind Language.isKind (fun _ => rfl) (Language.fails_catalog_iff.not.2 hbody)

/-- A catalog with one language in it, whose extensions are no texts, and with entries that are none. The last one
has an extension without a text, but no identifier. -/
def oddCatalog : Json :=
  .arr [.null, .str "x", .obj [("id", .num 1)], .arr [.obj [("id", .str "y")]],
    .obj [("id", .str "python"), ("name", .null), ("extensions", .arr [.str ".py", .num 3, .null, .arr [.num 1]])],
    .obj [("extensions", .arr [.obj [("toString", .num 1)]])]]

theorem odd_catalog_is_decoded : ¬ Catalog.HasObject Language.IsUnreadable (some oddCatalog) ∧
    Query.languages.Decodes "id" Language.Describes Language.toJson oddCatalog := by
  have hread : (Catalog.read "languages" Language.read (some oddCatalog)).isOk = true := by decide +kernel
  have hbody : ¬ Catalog.HasObject Language.IsUnreadable (some oddCatalog) := by
    intro hhidden
    obtain ⟨fault, hfault⟩ := Language.fails_catalog_iff.2 hhidden
    rw [hfault] at hread
    nomatch hread
  exact ⟨hbody, (catalog_calls_read_entries oddCatalog).2.2 hbody⟩

/-- An extension without a text makes no error where its entry is left out. -/
theorem extension_of_no_language_is_ignored : ¬ ∀ body : Json,
    (¬ ∃ entries, body = .arr entries ∧
      ∀ entry ∈ entries, ∀ extension ∈ (entry.itemsField? "extensions").getD [], ¬ extension.Textless) →
    ∀ w, Ends (Query.languages.call id (.ok (some body))) w (fun r _ => ∃ e, r = .error e) fun _ _ => False := by
  intro hall
  have htextless : Json.Textless (.obj [("toString", .num 1)]) := .object rfl
  have hbody : ¬ ∃ entries, Json.arr [.obj [("extensions", .arr [.obj [("toString", .num 1)]])]] = .arr entries ∧
      ∀ entry ∈ entries, ∀ extension ∈ (entry.itemsField? "extensions").getD [], ¬ extension.Textless := by
    rintro ⟨_, ⟨⟩, h⟩
    exact h _ List.mem_cons_self _ List.mem_cons_self htextless
  obtain ⟨e, he⟩ := hall _ hbody {}
  nomatch he

end Query

end AsmLens
