import AsmLens.Proofs.Lines
import AsmLens.Uri

/-!
# Addresses of generated documents

Percent-encoding can be read back, so the address of a generated document tells for which source it was
made: two sources with different addresses have different generated documents.
-/

namespace AsmLens

namespace Text.Percent

theorem hexValue?_hexDigit {n : Nat} (h : n < 16) : hexValue? (hexDigit n) = some n := by
  have hall : ∀ i : Fin 16, hexValue? (hexDigit i) = some i := by decide
  exact hall ⟨n, h⟩

theorem decodeBytes_encodeByte (b : UInt8) (cs : List Char) :
    decodeBytes (encodeByte b ++ cs) = (decodeBytes cs).map (b :: ·) := by
  have hb : b.toNat < 256 := UInt8.toNat_lt b
  have hhigh := hexValue?_hexDigit (show b.toNat / 16 < 16 by omega)
  have hlow := hexValue?_hexDigit (show b.toNat % 16 < 16 by omega)
  have hbyte : UInt8.ofNat (16 * (b.toNat / 16) + b.toNat % 16) = b := by
    rw [Nat.div_add_mod]
    exact UInt8.ofNat_toNat
  show decodeBytes ('%' :: _ :: _ :: cs) = _
  rw [decodeBytes, hhigh, hlow]
  simp only [Option.bind_eq_bind, Option.bind_some, hbyte]
  cases decodeBytes cs <;> rfl

theorem decodeBytes_encodeBytes (bs : List UInt8) (cs : List Char) :
    decodeBytes (bs.flatMap encodeByte ++ cs) = (decodeBytes cs).map (bs ++ ·) := by
  induction bs with
  | nil => simp
  | cons b bs ih =>
    rw [List.flatMap_cons, List.append_assoc, decodeBytes_encodeByte, ih, Option.map_map]
    rfl

theorem decodeBytes_cons {c : Char} (hc : c ≠ '%') (cs : List Char) :
    decodeBytes (c :: cs) = (decodeBytes cs).map (String.utf8EncodeChar c ++ ·) := by
  rw [decodeBytes, if_neg hc]
  · simp only [Option.bind_eq_bind]
    cases decodeBytes cs <;> rfl
  · rintro a b cs' h -
    exact hc h

theorem decodeBytes_encodeChar (c : Char) (cs : List Char) :
    decodeBytes (encodeChar c ++ cs) = (decodeBytes cs).map (String.utf8EncodeChar c ++ ·) := by
  unfold encodeChar
  split
  · rename_i hplain
    refine decodeBytes_cons ?_ cs
    rintro rfl
    exact absurd hplain (by decide)
  · exact decodeBytes_encodeBytes _ cs

theorem decodeBytes_encode (cs : List Char) :
    decodeBytes (cs.flatMap encodeChar) = some (cs.flatMap String.utf8EncodeChar) := by
  induction cs with
  | nil => rfl
  | cons c cs ih =>
    rw [List.flatMap_cons, decodeBytes_encodeChar, ih]
    rfl

theorem decode_encode (s : String) : decode (encode s) = some s := by
  unfold decode encode
  rw [String.toList_ofList, decodeBytes_encode]
  have hbytes : (⟨(s.toList.flatMap String.utf8EncodeChar).toArray⟩ : ByteArray) = s.toByteArray := by
    rw [← String.utf8Encode_toList, List.utf8Encode]
    exact ByteArray.ext List.data_toByteArray.symm
  show String.fromUTF8? ⟨_⟩ = _
  rw [hbytes, String.fromUTF8?, dif_pos s.isValidUTF8]
  rfl

theorem encode_injective : Function.Injective encode := by
  intro s t h
  have hdecode := congrArg decode h
  rw [decode_encode, decode_encode] at hdecode
  exact Option.some.inj hdecode

theorem isPlain_hexDigit {n : Nat} (h : n < 16) : isPlain (hexDigit n) = true := by
  have hall : ∀ i : Fin 16, isPlain (hexDigit i) = true := by decide
  exact hall ⟨n, h⟩

theorem notMem_encode (s : String) {c : Char} (hc : isPlain c = false) (hmark : c ≠ '%') :
    c ∉ (encode s).toList := by
  have hplain : ∀ {d : Char}, isPlain d = true → c ≠ d := by
    rintro d hd rfl
    exact Bool.false_ne_true (hc.symm.trans hd)
  unfold encode
  rw [String.toList_ofList, List.mem_flatMap]
  rintro ⟨d, -, hd⟩
  unfold encodeChar at hd
  split at hd
  · rename_i hd'
    exact hplain hd' (List.mem_singleton.1 hd)
  · obtain ⟨b, -, hb⟩ := List.mem_flatMap.1 hd
    have hlt : b.toNat < 256 := UInt8.toNat_lt b
    simp only [encodeByte, List.mem_cons, List.not_mem_nil, or_false] at hb
    rcases hb with hb | hb | hb
    · exact hmark hb
    · exact hplain (isPlain_hexDigit (by omega)) hb
    · exact hplain (isPlain_hexDigit (by omega)) hb

theorem length_encodeChar_pos (c : Char) : 1 ≤ (encodeChar c).length := by
  unfold encodeChar
  split
  · exact Nat.le_refl 1
  · have hsize : 0 < (String.utf8EncodeChar c).length := by
      rw [String.length_utf8EncodeChar]
      exact Char.utf8Size_pos c
    obtain ⟨b, bs, hbytes⟩ := List.exists_cons_of_length_pos hsize
    rw [hbytes, List.flatMap_cons, List.length_append]
    exact Nat.le_add_right_of_le (by decide : 1 ≤ 3)

theorem length_le_encode (s : String) : s.toList.length ≤ (encode s).toList.length := by
  unfold encode
  rw [String.toList_ofList]
  induction s.toList with
  | nil => exact Nat.le_refl 0
  | cons c cs ih =>
    have hpos := length_encodeChar_pos c
    rw [List.flatMap_cons, List.length_cons, List.length_append]
    omega

end Text.Percent

namespace Uri

theorem parse_ofList {scheme path query : List Char} (hscheme : ':' ∉ scheme) (hpath : '?' ∉ path)
    (hquery : '?' ∉ query) :
    parse (String.ofList (scheme ++ ':' :: (path ++ '?' :: query))) =
      ⟨String.ofList (scheme ++ ':' :: (path ++ '?' :: query)),
        String.ofList scheme, String.ofList path, String.ofList query⟩ := by
  have htake : (scheme ++ ':' :: (path ++ '?' :: query)).takeWhile (· ≠ ':') = scheme := by
    rw [List.takeWhile_append_of_pos fun c hc => by simpa using ne_of_mem_of_not_mem hc hscheme]
    simp
  have hdrop : (scheme ++ ':' :: (path ++ '?' :: query)).drop (scheme.length + 1) = path ++ '?' :: query := by
    simp
  unfold parse
  dsimp only
  rw [String.toList_ofList, htake, hdrop, Text.splitAt_append_cons hpath, Text.splitAt_of_notMem hquery]
  rfl

theorem text_generated (source : Uri) : ∃ name, (generated source).text =
    generatedScheme ++ ":/" ++ Text.Percent.encode name ++ ".asm?" ++ Text.Percent.encode source.text := by
  refine ⟨if Path.baseName source.path = "" then "untitled" else Path.baseName source.path, ?_⟩
  unfold generated parse
  rfl

theorem parse_text_generated (source : Uri) : parse (generated source).text = generated source := rfl

theorem parts_of_generated (source : Uri) :
    (generated source).scheme = generatedScheme ∧
      (generated source).query = Text.Percent.encode source.text := by
  obtain ⟨name, htext⟩ := text_generated source
  have hlist : (generated source).text =
      String.ofList (generatedScheme.toList ++ ':' :: ('/' :: ((Text.Percent.encode name).toList ++
        ".asm".toList) ++ '?' :: (Text.Percent.encode source.text).toList)) := by
    rw [htext, ← String.toList_inj, String.toList_ofList]
    simp [String.toList_append]
  have hscheme : ':' ∉ generatedScheme.toList := by decide
  have hmark : ∀ s, '?' ∉ (Text.Percent.encode s).toList := fun s =>
    Text.Percent.notMem_encode s (by decide) (by decide)
  have hpath : '?' ∉ '/' :: ((Text.Percent.encode name).toList ++ ".asm".toList) := by
    simp [hmark name]
  have hparse := parse_ofList hscheme hpath (hmark source.text)
  rw [← hlist, parse_text_generated, String.ofList_toList, String.ofList_toList] at hparse
  exact ⟨congrArg scheme hparse, congrArg query hparse⟩

theorem text_eq_of_generated {source source' : Uri}
    (h : (generated source).text = (generated source').text) : source.text = source'.text := by
  have hparsed : generated source = generated source' := congrArg parse h
  have hquery := congrArg query hparsed
  rw [(parts_of_generated source).2, (parts_of_generated source').2] at hquery
  exact Text.Percent.encode_injective hquery

theorem space_notMem_generated (source : Uri) : ' ' ∉ (generated source).text.toList := by
  have hspace : ∀ s, ' ' ∉ (Text.Percent.encode s).toList := fun s =>
    Text.Percent.notMem_encode s (by decide) (by decide)
  obtain ⟨name, htext⟩ := text_generated source
  rw [htext]
  simp only [String.toList_append, List.mem_append, not_or]
  exact ⟨⟨⟨⟨by decide, by decide⟩, hspace name⟩, by decide⟩, hspace source.text⟩

/-- What follows the last space of a key is the address of the generated document. -/
theorem splitAt_sessionKey (source : Uri) : ∃ rest,
    Text.splitAt ' ' (sessionKey source (generated source)).toList.reverse =
      (generated source).text.toList.reverse :: rest := by
  have hkey : (sessionKey source (generated source)).toList.reverse =
      (generated source).text.toList.reverse ++ ' ' :: (source.text.toList ++ [' ', '-', '>']).reverse := by
    have hlist : (sessionKey source (generated source)).toList =
        source.text.toList ++ " -> ".toList ++ (generated source).text.toList := by
      simp only [sessionKey, ToString.toString, String.toList_append]
    rw [hlist]
    simp
  rw [hkey, Text.splitAt_append_cons (by simpa using space_notMem_generated source)]
  exact ⟨_, rfl⟩

theorem text_eq_of_sessionKey {source source' : Uri}
    (h : sessionKey source (generated source) = sessionKey source' (generated source')) :
    source.text = source'.text := by
  obtain ⟨rest, hrest⟩ := splitAt_sessionKey source
  obtain ⟨rest', hrest'⟩ := splitAt_sessionKey source'
  rw [h, hrest'] at hrest
  have htext := List.reverse_injective (List.cons.inj hrest).1
  exact (text_eq_of_generated (String.toList_inj.1 htext)).symm

/-- A document is not generated from itself. -/
theorem text_ne_generated (source : Uri) : source.text ≠ (generated source).text := by
  intro h
  obtain ⟨name, htext⟩ := text_generated source
  have hlength := congrArg (fun s => s.toList.length) (h.trans htext)
  have hle := Text.Percent.length_le_encode source.text
  simp only [String.toList_append, List.length_append] at hlength
  have hmark : 0 < ":/".toList.length := by decide
  omega

/-- The generated document of a source is told by its scheme, leads back to the source by its query, and
is not the source; so neither two generated documents nor two sessions of sources with different addresses
can be taken for each other, whatever marks and arrows the addresses of the sources hold. -/
theorem generated_documents_never_collide :
    (∀ source : Uri, (generated source).scheme = generatedScheme ∧
      Text.Percent.decode (generated source).query = some source.text ∧
      (generated source).text ≠ source.text) ∧
    ∀ source source' : Uri, source.text ≠ source'.text →
      (generated source).text ≠ (generated source').text ∧
      sessionKey source (generated source) ≠ sessionKey source' (generated source') := by
  refine ⟨fun source => ?_, fun source source' hne => ?_⟩
  · obtain ⟨hscheme, hquery⟩ := parts_of_generated source
    refine ⟨hscheme, ?_, (text_ne_generated source).symm⟩
    rw [hquery]
    exact Text.Percent.decode_encode source.text
  · exact ⟨fun h => hne (text_eq_of_generated h), fun h => hne (text_eq_of_sessionKey h)⟩

/-- A source whose address ends as a session key does, and the source that this key begins with. -/
theorem arrows_in_addresses_never_collide :
    (file "/a").text ≠ (parse "file:///a -> compiler-explorer:/a.asm?file:/a").text ∧
    (generated (file "/a")).text ≠ (generated (parse "file:///a -> compiler-explorer:/a.asm?file:/a")).text ∧
    sessionKey (file "/a") (generated (file "/a")) ≠
      sessionKey (parse "file:///a -> compiler-explorer:/a.asm?file:/a")
        (generated (parse "file:///a -> compiler-explorer:/a.asm?file:/a")) := by
  have hne : (file "/a").text ≠ (parse "file:///a -> compiler-explorer:/a.asm?file:/a").text := by decide
  exact ⟨hne, generated_documents_never_collide.2 _ _ hne⟩

end Uri

end AsmLens
