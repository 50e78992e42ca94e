import Peekbeam.FileTable

/-!
# Encoded text

`toUtf8` is the encoding of a text.  The lossy decoder of path bytes and the strict one of
`fs::read_to_string` both take it back: `fromUtf8Lossy_toUtf8`, `fromUtf8_eq_some_iff`.

The strict decoder refuses a whole file for one invalid sequence in it.  `isUtf8_between` says
where to look for it: bytes that stand between ASCII characters of a file are UTF-8 or not by
themselves.
-/

namespace Peekbeam

/-- The bytes of a `String`. -/
def toUtf8 (text : Text) : List UInt8 := text.flatMap String.utf8EncodeChar

@[simp] lemma toUtf8_nil : toUtf8 [] = [] := rfl

lemma toUtf8_cons (c : Char) (text : Text) :
    toUtf8 (c :: text) = String.utf8EncodeChar c ++ toUtf8 text :=
  List.flatMap_cons

lemma toUtf8_append (text text' : Text) : toUtf8 (text ++ text') = toUtf8 text ++ toUtf8 text' :=
  List.flatMap_append

/-! ## Lossy decoding -/

namespace Utf8State

/-- The first byte of a character, as a number. -/
lemma first_ofNat {n : ℕ} (h : n < 256) :
    first (UInt8.ofNat n) =
      if n < 0x80 then ([Char.ofNat n], start)
      else if 0xC2 ≤ n ∧ n ≤ 0xDF then ([], inside (n - 0xC0) 0x80 0xBF 0)
      else if n = 0xE0 then ([], inside 0 0xA0 0xBF 1)
      else if n = 0xED then ([], inside 0xD 0x80 0x9F 1)
      else if 0xE1 ≤ n ∧ n ≤ 0xEF then ([], inside (n - 0xE0) 0x80 0xBF 1)
      else if n = 0xF0 then ([], inside 0 0x90 0xBF 2)
      else if 0xF1 ≤ n ∧ n ≤ 0xF3 then ([], inside (n - 0xF0) 0x80 0xBF 2)
      else if n = 0xF4 then ([], inside 4 0x80 0x8F 2)
      else ([REPLACEMENT_CHARACTER], start) := by
  have hn : (UInt8.ofNat n).toNat = n := by simpa using Nat.mod_eq_of_lt h
  have heq : ∀ b : UInt8, UInt8.ofNat n = b ↔ n = b.toNat := fun b => by
    rw [← UInt8.toNat_inj, hn]
  unfold first
  simp only [UInt8.lt_iff_toNat_lt, UInt8.le_iff_toNat_le, heq, hn]
  rfl

/-- A byte that may come next inside a character. -/
lemma decode_inside {acc : ℕ} {lo hi : UInt8} {more n : ℕ} (h : n < 256) (hlo : lo.toNat ≤ n)
    (hhi : n ≤ hi.toNat) (bytes : List UInt8) :
    (inside acc lo hi more).decode (UInt8.ofNat n :: bytes) =
      match more with
      | 0 => Char.ofNat (64 * acc + (n - 0x80)) :: start.decode bytes
      | more + 1 => (inside (64 * acc + (n - 0x80)) 0x80 0xBF more).decode bytes := by
  have hn : (UInt8.ofNat n).toNat = n := by simpa using Nat.mod_eq_of_lt h
  have hnext : lo ≤ UInt8.ofNat n ∧ UInt8.ofNat n ≤ hi := by
    simp only [UInt8.le_iff_toNat_le, hn]
    exact ⟨hlo, hhi⟩
  rw [decode]
  simp only [next, if_pos hnext, hn]
  cases more <;> rfl

/-- The first byte of a character, read between characters. -/
lemma decode_start {n : ℕ} (h : n < 256) (bytes : List UInt8) :
    start.decode (UInt8.ofNat n :: bytes) =
      if n < 0x80 then Char.ofNat n :: start.decode bytes
      else if 0xC2 ≤ n ∧ n ≤ 0xDF then (inside (n - 0xC0) 0x80 0xBF 0).decode bytes
      else if n = 0xE0 then (inside 0 0xA0 0xBF 1).decode bytes
      else if n = 0xED then (inside 0xD 0x80 0x9F 1).decode bytes
      else if 0xE1 ≤ n ∧ n ≤ 0xEF then (inside (n - 0xE0) 0x80 0xBF 1).decode bytes
      else if n = 0xF0 then (inside 0 0x90 0xBF 2).decode bytes
      else if 0xF1 ≤ n ∧ n ≤ 0xF3 then (inside (n - 0xF0) 0x80 0xBF 2).decode bytes
      else if n = 0xF4 then (inside 4 0x80 0x8F 2).decode bytes
      else REPLACEMENT_CHARACTER :: start.decode bytes := by
  let resume : Text × Utf8State → Text := fun p => p.1 ++ p.2.decode bytes
  have hstep : start.decode (UInt8.ofNat n :: bytes) = resume (first (UInt8.ofNat n)) := rfl
  rw [hstep, first_ofNat h]
  simp only [apply_ite resume]
  rfl

lemma decode_two {v : ℕ} (hlo : 0x80 ≤ v) (hhi : v < 0x800) (bytes : List UInt8) :
    start.decode (UInt8.ofNat (v / 64 % 0x20 + 0xC0) :: UInt8.ofNat (v % 0x40 + 0x80) :: bytes) =
      Char.ofNat v :: start.decode bytes := by
  rw [decode_start (by omega), if_neg (by omega), if_pos (by omega),
    decode_inside (by omega) (by simp) (by simp; omega)]
  have : 64 * (v / 64 % 0x20 + 0xC0 - 0xC0) + (v % 0x40 + 0x80 - 0x80) = v := by omega
  simp only [this]

lemma decode_three {v : ℕ} (hlo : 0x800 ≤ v) (hhi : v < 0xD800 ∨ 0xDFFF < v ∧ v < 0x10000)
    (bytes : List UInt8) :
    start.decode (UInt8.ofNat (v / 4096 % 0x10 + 0xE0) :: UInt8.ofNat (v / 64 % 0x40 + 0x80) ::
        UInt8.ofNat (v % 0x40 + 0x80) :: bytes) =
      Char.ofNat v :: start.decode bytes := by
  have hlast : ∀ acc, 64 * acc = v - v % 64 →
      (inside acc 0x80 0xBF 0).decode (UInt8.ofNat (v % 0x40 + 0x80) :: bytes) =
        Char.ofNat v :: start.decode bytes := by
    intro acc hacc
    rw [decode_inside (by omega) (by simp) (by simp; omega)]
    have : 64 * acc + (v % 0x40 + 0x80 - 0x80) = v := by omega
    simp only [this]
  rw [decode_start (by omega), if_neg (by omega), if_neg (by omega)]
  by_cases hE0 : v / 4096 % 0x10 + 0xE0 = 0xE0
  · -- the second byte excludes what two bytes can encode
    rw [if_pos hE0, decode_inside (by omega) (by simp; omega) (by simp; omega)]
    exact hlast _ (by omega)
  rw [if_neg hE0]
  by_cases hED : v / 4096 % 0x10 + 0xE0 = 0xED
  · -- and here the surrogates
    rw [if_pos hED, decode_inside (by omega) (by simp) (by simp; omega)]
    exact hlast _ (by omega)
  · rw [if_neg hED, if_pos (by omega), decode_inside (by omega) (by simp) (by simp; omega)]
    exact hlast _ (by omega)

lemma decode_four {v : ℕ} (hlo : 0x10000 ≤ v) (hhi : v < 0x110000) (bytes : List UInt8) :
    start.decode (UInt8.ofNat (v / 262144 % 0x08 + 0xF0) ::
        UInt8.ofNat (v / 4096 % 0x40 + 0x80) :: UInt8.ofNat (v / 64 % 0x40 + 0x80) ::
        UInt8.ofNat (v % 0x40 + 0x80) :: bytes) =
      Char.ofNat v :: start.decode bytes := by
  have hlast : ∀ acc, 4096 * acc = v - v % 4096 →
      (inside acc 0x80 0xBF 1).decode (UInt8.ofNat (v / 64 % 0x40 + 0x80) ::
          UInt8.ofNat (v % 0x40 + 0x80) :: bytes) =
        Char.ofNat v :: start.decode bytes := by
    intro acc hacc
    rw [decode_inside (by omega) (by simp) (by simp; omega)]
    dsimp only
    rw [decode_inside (by omega) (by simp) (by simp; omega)]
    have : 64 * (64 * acc + (v / 64 % 0x40 + 0x80 - 0x80)) + (v % 0x40 + 0x80 - 0x80) = v := by
      omega
    simp only [this]
  rw [decode_start (by omega), if_neg (by omega), if_neg (by omega), if_neg (by omega),
    if_neg (by omega), if_neg (by omega)]
  by_cases hF0 : v / 262144 % 0x08 + 0xF0 = 0xF0
  · -- the second byte excludes what three bytes can encode
    rw [if_pos hF0, decode_inside (by omega) (by simp; omega) (by simp; omega)]
    exact hlast _ (by omega)
  rw [if_neg hF0]
  by_cases hlow : 0xF1 ≤ v / 262144 % 0x08 + 0xF0 ∧ v / 262144 % 0x08 + 0xF0 ≤ 0xF3
  · rw [if_pos hlow, decode_inside (by omega) (by simp) (by simp; omega)]
    exact hlast _ (by omega)
  · rw [if_neg hlow, if_pos (by omega), decode_inside (by omega) (by simp) (by simp; omega)]
    exact hlast _ (by omega)

/-- **One character.**  Its bytes are read as the character, and nothing is left over. -/
lemma decode_encodeChar (c : Char) (bytes : List UInt8) :
    start.decode (String.utf8EncodeChar c ++ bytes) = c :: start.decode bytes := by
  have hvalid : c.val.toNat < 0xD800 ∨ 0xDFFF < c.val.toNat ∧ c.val.toNat < 0x110000 := c.valid
  have hc : Char.ofNat c.val.toNat = c := Char.ofNat_toNat c
  unfold String.utf8EncodeChar
  dsimp only
  split
  · rw [List.singleton_append, decode_start (by omega), if_pos (by omega), hc]
  · split
    · exact (decode_two (by omega) (by omega) bytes).trans (by rw [hc])
    · split
      · exact (decode_three (by omega) (by omega) bytes).trans (by rw [hc])
      · exact (decode_four (by omega) (by omega) bytes).trans (by rw [hc])

end Utf8State

/-- **Nothing is replaced in an encoded text.** -/
theorem fromUtf8Lossy_toUtf8 (text : Text) : fromUtf8Lossy (toUtf8 text) = text := by
  induction text with
  | nil => rfl
  | cons c text ih =>
    rw [fromUtf8Lossy] at ih ⊢
    rw [toUtf8_cons, Utf8State.decode_encodeChar, ih]

/-! ## Strict decoding -/

/-- `String::from_utf8`, which `fs::read_to_string` uses: the text, if the bytes are those of
one. -/
def fromUtf8 (bytes : List UInt8) : Option Text :=
  bytes.toByteArray.utf8Decode?.map Array.toList

lemma toByteArray_toUtf8 (text : Text) : (toUtf8 text).toByteArray = text.utf8Encode := rfl

theorem fromUtf8_toUtf8 (text : Text) : fromUtf8 (toUtf8 text) = some text := by
  rw [fromUtf8, toByteArray_toUtf8, List.utf8Decode?_utf8Encode]
  rfl

/-- Only the encoding of a text is decoded. -/
theorem fromUtf8_eq_some_iff {bytes : List UInt8} {text : Text} :
    fromUtf8 bytes = some text ↔ bytes = toUtf8 text := by
  constructor
  · intro h
    obtain ⟨chars, hchars, rfl⟩ := Option.map_eq_some_iff.mp h
    have hbytes : bytes.toByteArray = chars.toList.utf8Encode := by
      have := ByteArray.utf8Encode_get_utf8Decode? (b := bytes.toByteArray) (h := by simp [hchars])
      simpa [hchars] using this.symm
    have := congrArg (fun b => b.data.toList) hbytes
    simpa [List.utf8Encode, toUtf8] using this
  · exact fun h => by rw [h, fromUtf8_toUtf8]

/-! ## ASCII bytes

A byte below `0x80` is a character on its own wherever it stands, so what is before it and what is
after it are decoded apart. -/

def IsUtf8 (bytes : List UInt8) : Prop := ∃ text, bytes = toUtf8 text

lemma isUtf8_iff_isSome {bytes : List UInt8} : IsUtf8 bytes ↔ (fromUtf8 bytes).isSome := by
  simp only [IsUtf8, Option.isSome_iff_exists, fromUtf8_eq_some_iff]

instance (bytes : List UInt8) : Decidable (IsUtf8 bytes) :=
  decidable_of_iff _ isUtf8_iff_isSome.symm

@[simp] lemma isUtf8_nil : IsUtf8 [] := ⟨[], rfl⟩

lemma isUtf8_toUtf8 (text : Text) : IsUtf8 (toUtf8 text) := ⟨text, rfl⟩

/-- Other characters than ASCII have no ASCII bytes. -/
lemma utf8EncodeChar_of_mem {c : Char} {b : UInt8} (hb : b < 0x80)
    (h : b ∈ String.utf8EncodeChar c) : String.utf8EncodeChar c = [b] := by
  have hb : b.toNat < 128 := hb
  have hmod : ∀ n, 128 ≤ n % 256 → b ≠ UInt8.ofNat n := by
    rintro n hn rfl
    rw [UInt8.toNat_ofNat'] at hb
    omega
  unfold String.utf8EncodeChar at h ⊢
  dsimp only at h ⊢
  split at h
  · rename_i hascii
    rw [if_pos hascii, List.mem_singleton.mp h]
  · exfalso
    split_ifs at h <;> simp only [List.mem_cons, List.not_mem_nil, or_false] at h
    · rcases h with h | h
      all_goals exact hmod _ (by omega) h
    · rcases h with h | h | h
      all_goals exact hmod _ (by omega) h
    · rcases h with h | h | h | h
      all_goals exact hmod _ (by omega) h

lemma utf8EncodeChar_ofNat {b : UInt8} (hb : b < 0x80) :
    String.utf8EncodeChar (Char.ofNat b.toNat) = [b] := by
  have hb : b.toNat < 128 := hb
  have hvalid : b.toNat.isValidChar := Or.inl (by omega)
  have hval : (Char.ofNat b.toNat).val.toNat = b.toNat := by
    rw [Char.ofNat, dif_pos hvalid]
    rfl
  unfold String.utf8EncodeChar
  dsimp only
  rw [hval, if_pos (by omega), UInt8.ofNat_toNat]

/-- An ASCII byte in an encoded text ends one part of it and starts another. -/
lemma isUtf8_append_cons {b : UInt8} (hb : b < 0x80) (front back : List UInt8) :
    IsUtf8 (front ++ b :: back) ↔ IsUtf8 front ∧ IsUtf8 back := by
  constructor
  · rintro ⟨text, htext⟩
    induction text generalizing front with
    | nil => simp at htext
    | cons c text ih =>
      rw [toUtf8_cons] at htext
      rcases List.append_eq_append_iff.mp htext with ⟨rest, hchar, hrest⟩ | ⟨rest, rfl, hrest⟩
      · -- the byte is in the first character, and so is it
        rcases rest with _ | ⟨b', rest⟩
        · obtain ⟨-, hback⟩ := ih [] hrest
          refine ⟨⟨[c], ?_⟩, hback⟩
          rw [toUtf8_cons, toUtf8_nil, List.append_nil, hchar, List.append_nil]
        · obtain ⟨rfl, rfl⟩ : b = b' ∧ back = rest ++ toUtf8 text := by simpa using hrest
          rw [utf8EncodeChar_of_mem hb (by simp [hchar])] at hchar
          obtain ⟨rfl, rfl⟩ : front = [] ∧ rest = [] := by
            rcases front with _ | ⟨d, front⟩
            · simpa using hchar
            · simp at hchar
          exact ⟨isUtf8_nil, isUtf8_toUtf8 text⟩
      · obtain ⟨hfront, hback⟩ := ih rest hrest.symm
        refine ⟨?_, hback⟩
        obtain ⟨text', rfl⟩ := hfront
        exact ⟨c :: text', (toUtf8_cons c text').symm⟩
  · rintro ⟨⟨text, rfl⟩, text', rfl⟩
    have hchar : String.utf8EncodeChar (Char.ofNat b.toNat) = [b] := utf8EncodeChar_ofNat hb
    refine ⟨text ++ Char.ofNat b.toNat :: text', ?_⟩
    rw [toUtf8_append, toUtf8_cons, hchar, List.singleton_append]

/-- The same for a run of ASCII bytes. -/
lemma isUtf8_append_ascii {ascii : List UInt8} (hne : ascii ≠ []) (h : ∀ b ∈ ascii, b < 0x80)
    (front back : List UInt8) : IsUtf8 (front ++ (ascii ++ back)) ↔ IsUtf8 front ∧ IsUtf8 back := by
  induction ascii generalizing front with
  | nil => exact absurd rfl hne
  | cons b ascii ih =>
    rw [List.cons_append, isUtf8_append_cons (h b (by simp))]
    cases ascii with
    | nil => rw [List.nil_append]
    | cons b' ascii =>
      have hrest := ih (by simp) (fun d hd => h d (List.mem_cons_of_mem _ hd)) []
      rw [List.nil_append] at hrest
      rw [hrest]
      simp

lemma toUtf8_ascii {c : Char} (hc : c.toNat < 0x80) : ∃ b : UInt8, b < 0x80 ∧ toUtf8 [c] = [b] := by
  have hnat : (UInt8.ofNat c.toNat).toNat = c.toNat := by
    rw [UInt8.toNat_ofNat', Nat.mod_eq_of_lt (by omega)]
  have hb : UInt8.ofNat c.toNat < 0x80 := by
    rw [UInt8.lt_iff_toNat_lt, hnat]
    exact hc
  have hchar := utf8EncodeChar_ofNat hb
  rw [hnat, Char.ofNat_toNat] at hchar
  exact ⟨_, hb, by rw [toUtf8_cons, toUtf8_nil, List.append_nil, hchar]⟩

/-- Between ASCII characters, bytes are decoded by themselves. -/
lemma isUtf8_between {c d : Char} (hc : c.toNat < 0x80) (hd : d.toNat < 0x80) (before after : Text)
    (bytes : List UInt8) :
    IsUtf8 (toUtf8 (before ++ [c]) ++ bytes ++ toUtf8 (d :: after)) ↔ IsUtf8 bytes := by
  obtain ⟨b, hb, hcb⟩ := toUtf8_ascii hc
  obtain ⟨e, he, hde⟩ := toUtf8_ascii hd
  have hlist : toUtf8 (before ++ [c]) ++ bytes ++ toUtf8 (d :: after) =
      toUtf8 before ++ b :: (bytes ++ e :: toUtf8 after) := by
    have hafter : toUtf8 (d :: after) = e :: toUtf8 after := by
      rw [← List.singleton_append, toUtf8_append, hde, List.singleton_append]
    rw [toUtf8_append, hcb, hafter]
    simp
  rw [hlist, isUtf8_append_cons hb, isUtf8_append_cons he]
  simp [isUtf8_toUtf8]

end Peekbeam
