import AsmLens.Proofs.Addresses
import AsmLens.Service.Query
import AsmLens.Text

/-!
# Identifiers in addresses of queries

The address of a query is the base address of the service and fixed texts, with every identifier
percent-encoded between them. The base address does not end in a slash and a written identifier holds none of
the marks that end a segment, so an identifier stays inside its segment, and two queries to one endpoint have
the same address only if they name the same things (`identifiers_stay_in_segments`).
-/

namespace AsmLens

namespace Config

theorem getLast?_withoutTrailingSlashes (s : String) :
    (withoutTrailingSlashes s).toList.getLast? ≠ some '/' := by
  intro hlast
  have hhead := List.head?_dropWhile_not (fun c => decide (c = '/')) s.toList.reverse
  rw [withoutTrailingSlashes, String.toList_ofList, List.getLast?_reverse] at hlast
  rw [hlast] at hhead
  simp at hhead

theorem getLast?_baseUrl (config : Config) (environment : Option String) :
    (config.baseUrl environment).toList.getLast? ≠ some '/' :=
  getLast?_withoutTrailingSlashes _

end Config

namespace Query

open Text

/-! ### The parts of an address -/

def front : Query → String
  | .languages => "/api/languages?fields=id,name,extensions,monaco"
  | .compilers _ => "/api/compilers/"
  | .formatters => "/api/formats"
  | .documentation _ _ => "/api/asm/"
  | .compile _ _ _ _ => "/api/compiler/"
  | .format _ _ _ => "/api/format/"

/-- The identifiers in an address, each with the fixed text behind it. -/
def identified : Query → List (String × String)
  | .languages | .formatters => []
  | .compilers language => [(language, "?fields=id,name,lang,compilerType,semver,instructionSet")]
  | .documentation set opcode => [(set, "/"), (opcode, "")]
  | .compile compiler _ _ _ => [(compiler, "/compile")]
  | .format formatter _ _ => [(formatter, "")]

def identifiers (q : Query) : List String := q.identified.map Prod.fst

/-- What a query is sent to, whatever it names: the fixed texts of its address. -/
def endpoint (q : Query) : String × List String := (q.front, q.identified.map Prod.snd)

def written (ids : List (String × String)) : List (String × String) :=
  ids.map fun id => (Percent.encode id.1, id.2)

theorem address_eq_weave (base : String) (q : Query) :
    q.address base = weave (base ++ q.front) (written q.identified) := by
  unfold address route
  cases q <;> simp [front, identified, written, weave, String.append_assoc]

/-! ### Reading the identifiers back -/

/-- Behind every identifier but the last one is a mark that no written text holds. -/
def IsSeparated : List (String × String) → Prop
  | [] => True
  | id :: rest =>
    (rest = [] ∨ ∃ c text, id.2 = String.ofList (c :: text) ∧ Percent.isPlain c = false ∧ c ≠ '%') ∧
      IsSeparated rest

theorem isSeparated_identified (q : Query) : IsSeparated q.identified := by
  cases q with
  | languages | formatters => trivial
  | documentation set opcode => exact ⟨.inr ⟨'/', [], rfl, by decide, by decide⟩, .inl rfl, trivial⟩
  | compilers _ | compile _ _ _ _ | format _ _ _ => exact ⟨.inl rfl, trivial⟩

theorem encode_eq_of_append {s s' t t' : String} {c : Char} {text : List Char}
    (hc : Percent.isPlain c = false) (hmark : c ≠ '%')
    (h : Percent.encode s ++ (String.ofList (c :: text) ++ t) =
      Percent.encode s' ++ (String.ofList (c :: text) ++ t')) : s = s' := by
  have hlist := congrArg String.toList h
  simp only [String.toList_append, String.toList_ofList, List.cons_append] at hlist
  have hparts := congrArg (splitAt c) hlist
  rw [splitAt_append_cons (Percent.notMem_encode s hc hmark),
    splitAt_append_cons (Percent.notMem_encode s' hc hmark)] at hparts
  exact Percent.encode_injective (String.toList_inj.1 (List.cons.inj hparts).1)

/-- What is woven from written identifiers between the same texts tells the identifiers. -/
theorem identifiers_eq_of_weave {ids ids' : List (String × String)} {first : String}
    (hsep : IsSeparated ids) (hbehind : ids.map Prod.snd = ids'.map Prod.snd)
    (h : weave first (written ids) = weave first (written ids')) : ids.map Prod.fst = ids'.map Prod.fst := by
  induction ids generalizing ids' first with
  | nil =>
    rw [List.map_nil, eq_comm, List.map_eq_nil_iff] at hbehind
    rw [hbehind]
  | cons id ids ih =>
    obtain ⟨id', ids', rfl⟩ : ∃ id' rest, ids' = id' :: rest := by
      cases ids' with
      | nil => simp at hbehind
      | cons id' rest => exact ⟨id', rest, rfl⟩
    obtain ⟨s, behind⟩ := id
    obtain ⟨s', behind'⟩ := id'
    obtain ⟨rfl, htexts⟩ : behind = behind' ∧ ids.map Prod.snd = ids'.map Prod.snd := by
      simpa using hbehind
    have hwoven : Percent.encode s ++ weave behind (written ids) =
        Percent.encode s' ++ weave behind (written ids') := by
      simpa [written, weave] using h
    obtain ⟨hlast | ⟨c, text, rfl, hc, hmark⟩, hsep⟩ := hsep
    · subst hlast
      obtain rfl : ids' = [] := by simpa using htexts.symm
      simpa [written, weave, Percent.encode_injective.eq_iff] using hwoven
    · have hfirst : s = s' := by
        rw [← String.append_empty (s := String.ofList (c :: text)), ← append_weave, ← append_weave] at hwoven
        exact encode_eq_of_append hc hmark hwoven
      subst hfirst
      rw [String.append_right_inj] at hwoven
      simp [ih hsep htexts hwoven]

/-- Under one base address, queries to one endpoint have the same address only if they name the same things. -/
theorem address_inj {q q' : Query} (hendpoint : q.endpoint = q'.endpoint) (base : String) :
    q.address base = q'.address base ↔ q.identifiers = q'.identifiers := by
  obtain ⟨hfront, hbehind⟩ := Prod.mk.inj hendpoint
  rw [address_eq_weave, address_eq_weave, ← hfront]
  refine ⟨fun h => identifiers_eq_of_weave (isSeparated_identified q) hbehind h, fun h => ?_⟩
  have hids : q.identified = q'.identified := by
    rw [← List.zip_unzip q.identified, ← List.zip_unzip q'.identified, List.unzip_eq_map, List.unzip_eq_map,
      hbehind]
    exact congrArg (List.zip · _) h
  rw [hids]

/-- Whatever the settings and the environment are, the base address does not end in a slash, and the address of a
query is made of it, of the fixed texts of an endpoint and of the written identifiers. What is written of an
identifier holds no mark that would end its segment, and can be read back; so two queries to one endpoint have
different addresses if they name different things. -/
theorem identifiers_stay_in_segments (settings : Settings) (environment : Option String) :
    let base := (Config.ofSettings settings).baseUrl environment
    base.toList.getLast? ≠ some '/' ∧
      (∀ q : Query, q.address base =
        weave (base ++ q.front) (q.identified.map fun id => (Percent.encode id.1, id.2))) ∧
      (∀ id, (∀ mark ∈ ['/', '?', '#', '&'], mark ∉ (Percent.encode id).toList) ∧
        Percent.decode (Percent.encode id) = some id) ∧
      ∀ q q' : Query, q.endpoint = q'.endpoint →
        (q.address base = q'.address base ↔ q.identifiers = q'.identifiers) := by
  intro base
  refine ⟨Config.getLast?_baseUrl _ environment, address_eq_weave base, fun id => ⟨fun mark hmark => ?_, ?_⟩,
    fun q q' hendpoint => address_inj hendpoint base⟩
  · have hmarks : ∀ c ∈ ['/', '?', '#', '&'], Percent.isPlain c = false ∧ c ≠ '%' := by
      simp [Percent.isPlain]
    exact Percent.notMem_encode id (hmarks mark hmark).1 (hmarks mark hmark).2
  · exact Percent.decode_encode id

/-- An instruction set and an opcode with slashes in them, which would make the same address if they were not
percent-encoded. -/
theorem slashes_in_identifiers_are_told_apart :
    '/' ∉ (Percent.encode "x86/64").toList ∧
      (documentation "x86/64" "mov").endpoint = (documentation "x86" "64/mov").endpoint ∧
      (documentation "x86/64" "mov").address "http://localhost:10240" ≠
        (documentation "x86" "64/mov").address "http://localhost:10240" := by
  have hbase : (Config.ofSettings []).baseUrl (some "http://localhost:10240//") = "http://localhost:10240" := by
    decide +kernel
  obtain ⟨-, -, hsegment, hinj⟩ := identifiers_stay_in_segments [] (some "http://localhost:10240//")
  rw [hbase] at hinj
  refine ⟨(hsegment "x86/64").1 '/' (by decide), rfl, ?_⟩
  exact (hinj (documentation "x86/64" "mov") (documentation "x86" "64/mov") rfl).not.2 (by decide)

end Query

end AsmLens
