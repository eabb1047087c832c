import SkCoord.Python.JsonRoundTrip

/-!
# Bytes

Texts as UTF-8, and bytes as base64 with the alphabet of URLs.  `b64decode_urlsafeB64encode`: what
is written is read back, also after its padding has been stripped and restored.
-/

namespace Python

/-- A byte string. -/
abbrev Bytes := List UInt8

/-! ### UTF-8 -/

/-- `s.encode()`. -/
def encodeUtf8 (s : List Char) : Bytes := (String.ofList s).toUTF8.data.toList

/-- `b.decode()`. -/
def decodeUtf8 (b : Bytes) : Option (List Char) := (String.fromUTF8? ⟨b.toArray⟩).map String.toList

theorem decodeUtf8_encodeUtf8 (s : List Char) : decodeUtf8 (encodeUtf8 s) = some s := by
  have hbytes : (⟨(encodeUtf8 s).toArray⟩ : ByteArray) = (String.ofList s).toUTF8 := by
    rw [encodeUtf8, Array.toArray_toList]
  have hvalid : (String.ofList s).toUTF8.IsValidUTF8 := (String.ofList s).isValidUTF8
  have hread : String.fromUTF8 (String.ofList s).toUTF8 hvalid = String.ofList s := rfl
  rw [decodeUtf8, hbytes, String.fromUTF8?, dif_pos hvalid, hread, Option.map_some,
    String.toList_ofList]

/-- The text of a file. -/
def readText (content : Bytes) : Except PyError (List Char) :=
  match decodeUtf8 content with
  | some text => pure text
  | none => throw (.value "'utf-8' codec can't decode the file")

theorem readText_eq_ok {content : Bytes} {text : List Char} :
    readText content = .ok text ↔ decodeUtf8 content = some text := by
  unfold readText
  cases decodeUtf8 content with
  | none => exact ⟨nofun, nofun⟩
  | some t =>
    constructor
    · exact fun h => congrArg some (Except.ok.inj h)
    · exact fun h => congrArg Except.ok (Option.some.inj h)

theorem encodeUtf8_injective : Function.Injective encodeUtf8 := by
  intro s t h
  have hs := decodeUtf8_encodeUtf8 s
  rw [h, decodeUtf8_encodeUtf8] at hs
  exact (Option.some.inj hs).symm

theorem encodeUtf8_append (s t : List Char) : encodeUtf8 (s ++ t) = encodeUtf8 s ++ encodeUtf8 t := by
  simp [encodeUtf8]

theorem utf8DecodeChar?_encodeUtf8 (c : Char) (l : Bytes) :
    ByteArray.utf8DecodeChar? ⟨(encodeUtf8 [c] ++ l).toArray⟩ 0 = some c := by
  have hbytes : (⟨(encodeUtf8 [c] ++ l).toArray⟩ : ByteArray) =
      [c].utf8Encode ++ (⟨l.toArray⟩ : ByteArray) := by
    simp [encodeUtf8, ByteArray.ext_iff]
  rw [hbytes, List.utf8DecodeChar?_utf8Encode_singleton_append]

/-- A text whose bytes begin those of another begins it. -/
theorem prefix_of_encodeUtf8 : ∀ {q s : List Char}, encodeUtf8 q <+: encodeUtf8 s → q <+: s
  | [], s, _ => List.nil_prefix
  | c :: q, [], ⟨r, h⟩ => by
    have hdecode := utf8DecodeChar?_encodeUtf8 c (encodeUtf8 q ++ r)
    rw [← List.append_assoc, ← encodeUtf8_append, List.singleton_append, h] at hdecode
    cases hdecode
  | c :: q, d :: s, ⟨r, h⟩ => by
    rw [← List.singleton_append, encodeUtf8_append, List.append_assoc,
      ← @List.singleton_append _ d s, encodeUtf8_append] at h
    have hc := utf8DecodeChar?_encodeUtf8 c (encodeUtf8 q ++ r)
    rw [h, utf8DecodeChar?_encodeUtf8] at hc
    obtain rfl := Option.some.inj hc
    have hrest : encodeUtf8 q <+: encodeUtf8 s := ⟨r, List.append_cancel_left h⟩
    exact List.cons_prefix_cons.mpr ⟨rfl, prefix_of_encodeUtf8 hrest⟩

/-- The bytes of a text are the encoding of the text. -/
theorem encodeUtf8_of_decodeUtf8 {b : Bytes} {s : List Char} (h : decodeUtf8 b = some s) :
    encodeUtf8 s = b := by
  rw [decodeUtf8, Option.map_eq_some_iff] at h
  obtain ⟨t, ht, rfl⟩ := h
  rw [String.fromUTF8?] at ht
  split at ht
  · cases ht
    simp [encodeUtf8, String.fromUTF8]
  · cases ht

theorem decodeUtf8_append {b : Bytes} {s : List Char} (h : decodeUtf8 b = some s)
    (t : List Char) : decodeUtf8 (b ++ encodeUtf8 t) = some (s ++ t) := by
  rw [← encodeUtf8_of_decodeUtf8 h, ← encodeUtf8_append, decodeUtf8_encodeUtf8]

/-- ASCII takes one byte a character. -/
theorem length_encodeUtf8 {s : List Char} (hs : Printable s) : (encodeUtf8 s).length = s.length := by
  induction s with
  | nil => rfl
  | cons c s ih =>
    have hc : c.utf8Size = 1 := by
      have hle : c.toNat ≤ 126 := (hs c List.mem_cons_self).2
      have hval : c.toNat ≤ 127 := by omega
      exact if_pos hval
    have hone : (encodeUtf8 [c]).length = 1 := by
      simp [encodeUtf8, List.utf8Encode_singleton, hc]
    rw [← List.singleton_append, encodeUtf8_append, List.length_append, List.length_append, hone,
      ih fun d hd => hs d (List.mem_cons_of_mem _ hd)]
    rfl

/-! ### Base64 -/

/-- The character of six bits. -/
def sextetChar (n : ℕ) : Char :=
  if n < 26 then Char.ofNat (65 + n)
  else if n < 52 then Char.ofNat (71 + n)
  else if n < 62 then Char.ofNat (n - 4)
  else if n = 62 then '-'
  else '_'

/-- The six bits of a character; the characters of the other alphabet are read as well. -/
def sextet (c : Char) : Option ℕ :=
  if 'A' ≤ c ∧ c ≤ 'Z' then some (c.toNat - 65)
  else if 'a' ≤ c ∧ c ≤ 'z' then some (c.toNat - 71)
  else if '0' ≤ c ∧ c ≤ '9' then some (c.toNat + 4)
  else if c = '-' ∨ c = '+' then some 62
  else if c = '_' ∨ c = '/' then some 63
  else none

/-- `base64.urlsafe_b64encode`. -/
def urlsafeB64encode : Bytes → List Char
  | [] => []
  | [a] => [sextetChar (a.toNat / 4), sextetChar (a.toNat % 4 * 16), '=', '=']
  | [a, b] =>
    [sextetChar (a.toNat / 4), sextetChar (a.toNat % 4 * 16 + b.toNat / 16),
      sextetChar (b.toNat % 16 * 4), '=']
  | a :: b :: c :: l =>
    [sextetChar (a.toNat / 4), sextetChar (a.toNat % 4 * 16 + b.toNat / 16),
      sextetChar (b.toNat % 16 * 4 + c.toNat / 64), sextetChar (c.toNat % 64)] ++
      urlsafeB64encode l

/-- `base64.b64decode(s, altchars=b"-_", validate=True)`. -/
def b64decode : List Char → Option Bytes
  | [] => some []
  | [a, b, '=', '='] => do
    let x ← sextet a
    let y ← sextet b
    some [UInt8.ofNat (x * 4 + y / 16)]
  | [a, b, c, '='] => do
    let x ← sextet a
    let y ← sextet b
    let z ← sextet c
    some [UInt8.ofNat (x * 4 + y / 16), UInt8.ofNat (y % 16 * 16 + z / 4)]
  | a :: b :: c :: d :: l => do
    let x ← sextet a
    let y ← sextet b
    let z ← sextet c
    let w ← sextet d
    let rest ← b64decode l
    some (UInt8.ofNat (x * 4 + y / 16) :: UInt8.ofNat (y % 16 * 16 + z / 4) ::
      UInt8.ofNat (z % 4 * 64 + w) :: rest)
  | _ => none

/-- `s.rstrip("=")`. -/
def stripPadding (l : List Char) : List Char := (l.reverse.dropWhile (· == '=')).reverse

/-- `s + "=" * (-len(s) % 4)`. -/
def restorePadding (l : List Char) : List Char :=
  l ++ List.replicate ((4 - l.length % 4) % 4) '='

theorem sextet_sextetChar {n : ℕ} (hn : n < 64) : sextet (sextetChar n) = some n := by
  interval_cases n <;> decide

theorem sextetChar_ne {n : ℕ} (hn : n < 64) : sextetChar n ≠ '=' := by
  interval_cases n <;> decide

theorem sextetChar_ascii {n : ℕ} (hn : n < 64) : (sextetChar n).toNat < 128 := by
  interval_cases n <;> decide

/-- **What is written is read back.** The induction is on the text three bytes at a time, as the
writer goes: a rest of one or two bytes is written with padding, which the reader tells from a
digit. -/
theorem b64decode_urlsafeB64encode (bs : Bytes) : b64decode (urlsafeB64encode bs) = some bs := by
  induction bs using urlsafeB64encode.induct with
  | case1 => rfl
  | case2 a =>
    have ha := a.toNat_lt
    -- One byte: two digits, and the second one holds two bits of it.
    have h1 : sextet (sextetChar (a.toNat / 4)) = some (a.toNat / 4) :=
      sextet_sextetChar (by omega)
    have h2 : sextet (sextetChar (a.toNat % 4 * 16)) = some (a.toNat % 4 * 16) :=
      sextet_sextetChar (by omega)
    have hbyte : a.toNat / 4 * 4 + a.toNat % 4 * 16 / 16 = a.toNat := by omega
    rw [urlsafeB64encode, b64decode, h1, h2]
    simp only [Option.bind_eq_bind, Option.bind_some, hbyte, UInt8.ofNat_toNat]
  | case3 a b =>
    have ha := a.toNat_lt
    have hb := b.toNat_lt
    -- Two bytes: three digits.
    have h1 : sextet (sextetChar (a.toNat / 4)) = some (a.toNat / 4) :=
      sextet_sextetChar (by omega)
    have h2 : sextet (sextetChar (a.toNat % 4 * 16 + b.toNat / 16)) =
        some (a.toNat % 4 * 16 + b.toNat / 16) := sextet_sextetChar (by omega)
    have h3 : sextet (sextetChar (b.toNat % 16 * 4)) = some (b.toNat % 16 * 4) :=
      sextet_sextetChar (by omega)
    have hne : sextetChar (b.toNat % 16 * 4) ≠ '=' := sextetChar_ne (by omega)
    have hbyte1 : a.toNat / 4 * 4 + (a.toNat % 4 * 16 + b.toNat / 16) / 16 = a.toNat := by omega
    have hbyte2 : (a.toNat % 4 * 16 + b.toNat / 16) % 16 * 16 + b.toNat % 16 * 4 / 4 =
        b.toNat := by omega
    rw [urlsafeB64encode, b64decode, h1, h2, h3]
    · simp only [Option.bind_eq_bind, Option.bind_some, hbyte1, hbyte2, UInt8.ofNat_toNat]
    · exact fun h => hne h
  | case4 a b c l ih =>
    have ha := a.toNat_lt
    have hb := b.toNat_lt
    have hc := c.toNat_lt
    -- Three bytes: four digits and no padding, and the rest by induction.
    have h1 : sextet (sextetChar (a.toNat / 4)) = some (a.toNat / 4) :=
      sextet_sextetChar (by omega)
    have h2 : sextet (sextetChar (a.toNat % 4 * 16 + b.toNat / 16)) =
        some (a.toNat % 4 * 16 + b.toNat / 16) := sextet_sextetChar (by omega)
    have h3 : sextet (sextetChar (b.toNat % 16 * 4 + c.toNat / 64)) =
        some (b.toNat % 16 * 4 + c.toNat / 64) := sextet_sextetChar (by omega)
    have h4 : sextet (sextetChar (c.toNat % 64)) = some (c.toNat % 64) :=
      sextet_sextetChar (by omega)
    have hne : sextetChar (c.toNat % 64) ≠ '=' := sextetChar_ne (by omega)
    have hbyte1 : a.toNat / 4 * 4 + (a.toNat % 4 * 16 + b.toNat / 16) / 16 = a.toNat := by omega
    have hbyte2 : (a.toNat % 4 * 16 + b.toNat / 16) % 16 * 16 +
        (b.toNat % 16 * 4 + c.toNat / 64) / 4 = b.toNat := by omega
    have hbyte3 : (b.toNat % 16 * 4 + c.toNat / 64) % 4 * 64 + c.toNat % 64 = c.toNat := by omega
    rw [urlsafeB64encode]
    show b64decode (_ :: _ :: _ :: _ :: urlsafeB64encode l) = _
    rw [b64decode, h1, h2, h3, h4, ih]
    · simp only [Option.bind_eq_bind, Option.bind_some, hbyte1, hbyte2, hbyte3, UInt8.ofNat_toNat]
    · exact fun _ h _ => hne h
    · exact fun h _ => hne h

theorem urlsafeB64encode_ascii (bs : Bytes) : ∀ c ∈ urlsafeB64encode bs, c.toNat < 128 := by
  induction bs using urlsafeB64encode.induct with
  | case1 => exact fun c hc => nomatch hc
  | case2 a =>
    have ha := a.toNat_lt
    have h1 : (sextetChar (a.toNat / 4)).toNat < 128 := sextetChar_ascii (by omega)
    have h2 : (sextetChar (a.toNat % 4 * 16)).toNat < 128 := sextetChar_ascii (by omega)
    have hpad : '='.toNat < 128 := by decide
    simp only [urlsafeB64encode, List.forall_mem_cons]
    exact ⟨h1, h2, hpad, hpad, fun c hc => nomatch hc⟩
  | case3 a b =>
    have ha := a.toNat_lt
    have hb := b.toNat_lt
    have h1 : (sextetChar (a.toNat / 4)).toNat < 128 := sextetChar_ascii (by omega)
    have h2 : (sextetChar (a.toNat % 4 * 16 + b.toNat / 16)).toNat < 128 :=
      sextetChar_ascii (by omega)
    have h3 : (sextetChar (b.toNat % 16 * 4)).toNat < 128 := sextetChar_ascii (by omega)
    have hpad : '='.toNat < 128 := by decide
    simp only [urlsafeB64encode, List.forall_mem_cons]
    exact ⟨h1, h2, h3, hpad, fun c hc => nomatch hc⟩
  | case4 a b c l ih =>
    have ha := a.toNat_lt
    have hb := b.toNat_lt
    have hc := c.toNat_lt
    have h1 : (sextetChar (a.toNat / 4)).toNat < 128 := sextetChar_ascii (by omega)
    have h2 : (sextetChar (a.toNat % 4 * 16 + b.toNat / 16)).toNat < 128 :=
      sextetChar_ascii (by omega)
    have h3 : (sextetChar (b.toNat % 16 * 4 + c.toNat / 64)).toNat < 128 :=
      sextetChar_ascii (by omega)
    have h4 : (sextetChar (c.toNat % 64)).toNat < 128 := sextetChar_ascii (by omega)
    simp only [urlsafeB64encode, List.forall_mem_append, List.forall_mem_cons]
    exact ⟨⟨h1, h2, h3, h4, fun c hc => nomatch hc⟩, ih⟩

/-- The text without its padding, and the padding. -/
theorem urlsafeB64encode_split (bs : Bytes) :
    ∃ body, urlsafeB64encode bs = body ++ List.replicate ((4 - body.length % 4) % 4) '=' ∧
      (∀ c ∈ body, c ≠ '=') ∧ body.length = (4 * bs.length + 2) / 3 := by
  induction bs using urlsafeB64encode.induct with
  | case1 => exact ⟨[], rfl, fun _ h => (nomatch h), rfl⟩
  | case2 a =>
    have ha := a.toNat_lt
    have h1 : sextetChar (a.toNat / 4) ≠ '=' := sextetChar_ne (by omega)
    have h2 : sextetChar (a.toNat % 4 * 16) ≠ '=' := sextetChar_ne (by omega)
    exact ⟨[_, _], rfl, by simp [h1, h2], by simp⟩
  | case3 a b =>
    have ha := a.toNat_lt
    have hb := b.toNat_lt
    have h1 : sextetChar (a.toNat / 4) ≠ '=' := sextetChar_ne (by omega)
    have h2 : sextetChar (a.toNat % 4 * 16 + b.toNat / 16) ≠ '=' := sextetChar_ne (by omega)
    have h3 : sextetChar (b.toNat % 16 * 4) ≠ '=' := sextetChar_ne (by omega)
    exact ⟨[_, _, _], rfl, by simp [h1, h2, h3], by simp⟩
  | case4 a b c l ih =>
    obtain ⟨body, hbody, hne, hlen⟩ := ih
    have ha := a.toNat_lt
    have hb := b.toNat_lt
    have hc := c.toNat_lt
    have h1 : sextetChar (a.toNat / 4) ≠ '=' := sextetChar_ne (by omega)
    have h2 : sextetChar (a.toNat % 4 * 16 + b.toNat / 16) ≠ '=' := sextetChar_ne (by omega)
    have h3 : sextetChar (b.toNat % 16 * 4 + c.toNat / 64) ≠ '=' := sextetChar_ne (by omega)
    have h4 : sextetChar (c.toNat % 64) ≠ '=' := sextetChar_ne (by omega)
    refine ⟨[sextetChar (a.toNat / 4), sextetChar (a.toNat % 4 * 16 + b.toNat / 16),
      sextetChar (b.toNat % 16 * 4 + c.toNat / 64), sextetChar (c.toNat % 64)] ++ body, ?_, ?_, ?_⟩
    · rw [urlsafeB64encode, hbody, List.append_assoc, List.length_append]
      congr 4
      simp
    · intro d hd
      rcases List.mem_append.mp hd with hd | hd
      · simp only [List.mem_cons, List.not_mem_nil, or_false] at hd
        rcases hd with rfl | rfl | rfl | rfl <;> assumption
      · exact hne d hd
    · simp only [List.length_append, List.length_cons, List.length_nil]
      omega

theorem stripPadding_append {body : List Char} (hne : ∀ c ∈ body, c ≠ '=') (n : ℕ) :
    stripPadding (body ++ List.replicate n '=') = body := by
  have hpad : ∀ c ∈ List.replicate n '=', (c == '=') = true := by
    intro c hc
    rw [List.eq_of_mem_replicate hc]
    rfl
  have hstop : body.reverse.dropWhile (· == '=') = body.reverse := by
    cases h : body.reverse with
    | nil => rfl
    | cons c r =>
      have hc : c ≠ '=' := hne c (List.mem_reverse.mp (by rw [h]; exact List.mem_cons_self))
      exact List.dropWhile_cons_of_neg (by simpa using hc)
  rw [stripPadding, List.reverse_append, List.reverse_replicate,
    List.dropWhile_append_of_pos hpad, hstop, List.reverse_reverse]

/-- Stripped padding is restored. -/
theorem restorePadding_stripPadding (bs : Bytes) :
    restorePadding (stripPadding (urlsafeB64encode bs)) = urlsafeB64encode bs := by
  obtain ⟨body, hbody, hne, -⟩ := urlsafeB64encode_split bs
  rw [hbody, stripPadding_append hne, restorePadding]

theorem mem_of_mem_stripPadding {c : Char} {l : List Char} (h : c ∈ stripPadding l) : c ∈ l :=
  List.mem_reverse.mp ((List.dropWhile_suffix _).subset (List.mem_reverse.mp h))

theorem length_stripPadding (bs : Bytes) :
    (stripPadding (urlsafeB64encode bs)).length = (4 * bs.length + 2) / 3 := by
  obtain ⟨body, hbody, hne, hlen⟩ := urlsafeB64encode_split bs
  rw [hbody, stripPadding_append hne, hlen]

end Python
