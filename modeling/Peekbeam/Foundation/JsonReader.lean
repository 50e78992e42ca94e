import Mathlib.Data.List.Forall2
import Mathlib.Tactic.Linarith
import Peekbeam.Foundation.Json
import Peekbeam.Foundation.Lines
import Peekbeam.Foundation.Text

/-!
# Reading JSON

A reader for the values that `Json.pretty` writes: `readValue` reads one value from the front of a
text, `readStream` a text of many, one after the other.  Floating-point numbers are read by a
parameter; Boolean values and surrogate pairs, which are never written, are not read.

Written integers do not tell `nat` from `int`, so a value is read back in its canonical form
(`canonical`).  `readValue_pretty` says that it is, and where the value ends no matter what
follows; so a text of several values can be taken apart again (`readStream_unlines`) although each
of them takes many lines.
-/

namespace Json

open Str

variable {φ α : Type}

/-! ## Strings -/

def hexValue (c : Char) : Option ℕ :=
  if c.isDigit then some (c.toNat - 48)
  else if 'a' ≤ c ∧ c ≤ 'f' then some (c.toNat - 87)
  else if 'A' ≤ c ∧ c ≤ 'F' then some (c.toNat - 55)
  else none

lemma hexValue_hexDigit : ∀ n < 16, hexValue (hexDigit n) = some n := by decide

/-- The character that a backslash and one other stand for. -/
def unescape : Char → Option Char
  | '"' => some '"'
  | '\\' => some '\\'
  | '/' => some '/'
  | 'n' => some '\n'
  | 'r' => some '\r'
  | 't' => some '\t'
  | 'b' => some (Char.ofNat 8)
  | 'f' => some (Char.ofNat 12)
  | _ => none

/-- A character by its number, unless the number is a surrogate's. -/
def readScalar (n : ℕ) : Option Char := if n.isValidChar then some (Char.ofNat n) else none

lemma readScalar_toNat (c : Char) : readScalar c.toNat = some c := by
  have hvalid : c.toNat.isValidChar := c.valid
  rw [readScalar, if_pos hvalid, Char.ofNat_toNat]

/-- The rest of a string after the opening quote, and what follows the closing one. -/
def readString : List Char → Option (List Char × List Char)
  | [] => none
  | '"' :: s => some ([], s)
  | '\\' :: 'u' :: a :: b :: c :: d :: s => do
    let a ← hexValue a
    let b ← hexValue b
    let c ← hexValue c
    let d ← hexValue d
    let ch ← readScalar (16 * (16 * (16 * a + b) + c) + d)
    let (text, rest) ← readString s
    some (ch :: text, rest)
  | '\\' :: c :: s => do
    let c ← unescape c
    let (text, rest) ← readString s
    some (c :: text, rest)
  | c :: s =>
    if c.toNat < 32 then none
    else do
      let (text, rest) ← readString s
      some (c :: text, rest)

/-- A character is read back, escaped or not. -/
lemma readString_escapeChar (c : Char) (s : List Char) :
    readString (escapeChar c ++ s) = (readString s).map fun p => (c :: p.1, p.2) := by
  unfold escapeChar
  split_ifs with hquote hslash hn hr ht hb hf hcontrol
  · subst hquote
    cases h : readString s <;> simp [readString, unescape, h]
  · subst hslash
    cases h : readString s <;> simp [readString, unescape, h]
  · subst hn
    cases h : readString s <;> simp [readString, unescape, h]
  · subst hr
    cases h : readString s <;> simp [readString, unescape, h]
  · subst ht
    cases h : readString s <;> simp [readString, unescape, h]
  · have hc : c = Char.ofNat 8 := by rw [← hb, Char.ofNat_toNat]
    subst hc
    cases h : readString s <;> simp [readString, unescape, h]
  · have hc : c = Char.ofNat 12 := by rw [← hf, Char.ofNat_toNat]
    subst hc
    cases h : readString s <;> simp [readString, unescape, h]
  · have hzero : hexValue '0' = some 0 := by decide
    have hhigh := hexValue_hexDigit (c.toNat / 16) (by omega)
    have hlow := hexValue_hexDigit (c.toNat % 16) (by omega)
    have hvalue : 16 * (16 * (16 * 0 + 0) + c.toNat / 16) + c.toNat % 16 = c.toNat := by omega
    simp only [List.cons_append, List.nil_append, readString, hzero, hhigh, hlow, Option.bind_eq_bind,
      Option.bind_some, hvalue, readScalar_toNat]
    cases h : readString s <;> rfl
  · rw [List.singleton_append, readString, if_neg hcontrol]
    · cases h : readString s <;> rfl
    · exact hquote
    · exact fun _ _ _ _ _ hc _ => hslash hc
    · exact fun _ _ hc _ => hslash hc

lemma readString_quote (text rest : List Char) :
    readString (text.flatMap escapeChar ++ '"' :: rest) = some (text, rest) := by
  induction text with
  | nil => simp [readString]
  | cons c text ih => rw [List.flatMap_cons, List.append_assoc, readString_escapeChar, ih]; rfl

/-! ## Words -/

/-- The white space between tokens. -/
def isSpace (c : Char) : Bool := c = ' ' || c = '\n' || c = '\r' || c = '\t'

def skipSpace (s : List Char) : List Char := s.dropWhile isSpace

/-- A character of a number or a literal name. -/
def isWordChar (c : Char) : Bool := c.isAlphanum || c = '-' || c = '+' || c = '.'

/-- The text after a word: it does not go on. -/
def Ends (rest : List Char) : Prop := ∀ c ∈ rest.head?, isWordChar c = false

variable (readFloat : List Char → Option φ)

/-- A number or literal name. -/
def ofWord (w : List Char) : Option (Json φ) :=
  if w = "null".toList then some .null
  else if w ≠ [] ∧ w.all Char.isDigit then some (.nat (Nat.ofDigitChars 10 w 0))
  else if w.head? = some '-' ∧ w.tail ≠ [] ∧ w.tail.all Char.isDigit then
    some (.int (-(Nat.ofDigitChars 10 w.tail 0 : ℤ)))
  else (readFloat w).map .float

def readWord (s : List Char) : Option (Json φ × List Char) :=
  (ofWord readFloat (s.takeWhile isWordChar)).map fun v => (v, s.dropWhile isWordChar)

lemma isWordChar_of_isDigit {c : Char} (h : c.isDigit = true) : isWordChar c = true := by
  simp [isWordChar, Char.isAlphanum, h]

/-- A word is read up to where it ends. -/
lemma readWord_append {w rest : List Char} (hw : ∀ c ∈ w, isWordChar c = true)
    (hrest : Ends rest) :
    readWord readFloat (w ++ rest) = (ofWord readFloat w).map fun v => (v, rest) := by
  have hnil : rest.takeWhile isWordChar = [] ∧ rest.dropWhile isWordChar = rest := by
    cases rest with
    | nil => exact ⟨rfl, rfl⟩
    | cons c rest =>
      have hc : isWordChar c = false := hrest c rfl
      exact ⟨List.takeWhile_cons_of_neg (by simp [hc]), List.dropWhile_cons_of_neg (by simp [hc])⟩
  rw [readWord, List.takeWhile_append_of_pos hw, List.dropWhile_append_of_pos hw, hnil.1, hnil.2,
    List.append_nil]

lemma ofWord_toDigits (n : ℕ) : ofWord readFloat (Nat.toDigits 10 n) = some (.nat n) := by
  have hall : (Nat.toDigits 10 n).all Char.isDigit = true :=
    List.all_eq_true.mpr fun c hc => isDigit_of_mem hc
  have hnull : Nat.toDigits 10 n ≠ "null".toList := fun h =>
    absurd (isDigit_of_mem (h ▸ List.mem_cons_self : 'n' ∈ Nat.toDigits 10 n)) (by decide)
  rw [ofWord, if_neg hnull, if_pos ⟨Nat.toDigits_ne_nil, hall⟩, Nat.ofDigitChars_ten_toDigits]

lemma ofWord_neg (n : ℕ) :
    ofWord readFloat ('-' :: Nat.toDigits 10 n) = some (.int (-(n : ℤ))) := by
  have hall : (Nat.toDigits 10 n).all Char.isDigit = true :=
    List.all_eq_true.mpr fun c hc => isDigit_of_mem hc
  have hnull : '-' :: Nat.toDigits 10 n ≠ "null".toList := fun h => by
    simp at h
  rw [ofWord, if_neg hnull, if_neg (by simp), List.tail_cons,
    if_pos ⟨rfl, Nat.toDigits_ne_nil, hall⟩, Nat.ofDigitChars_ten_toDigits]

/-- The format of floating-point numbers loses nothing at `x`: the text is a word with a point or
an exponent, and is read back as `x`. -/
structure ReadsBack (showFloat : φ → List Char) (x : φ) : Prop where
  word : ∀ c ∈ showFloat x, isWordChar c = true
  marked : '.' ∈ showFloat x ∨ 'e' ∈ showFloat x
  read : readFloat (showFloat x) = some x

variable {readFloat} {showFloat : φ → List Char}

lemma ReadsBack.ofWord {x : φ} (h : ReadsBack readFloat showFloat x) :
    ofWord readFloat (showFloat x) = some (.float x) := by
  have hmarked : ∀ w : List Char, w.all Char.isDigit = true → '.' ∉ w ∧ 'e' ∉ w := fun w hw =>
    ⟨fun hc => absurd (List.all_eq_true.mp hw _ hc) (by decide),
      fun hc => absurd (List.all_eq_true.mp hw _ hc) (by decide)⟩
  have hnull : showFloat x ≠ "null".toList := fun hnull => by
    have := h.marked
    simp [hnull] at this
  have hdigits : ¬ (showFloat x ≠ [] ∧ (showFloat x).all Char.isDigit) := fun ⟨_, hall⟩ =>
    h.marked.elim (hmarked _ hall).1 (hmarked _ hall).2
  have hneg : ¬ ((showFloat x).head? = some '-' ∧ (showFloat x).tail ≠ [] ∧
      (showFloat x).tail.all Char.isDigit) := by
    rintro ⟨hhead, -, hall⟩
    obtain ⟨t, ht⟩ := List.head?_eq_some_iff.mp hhead
    have hmark := h.marked
    rw [ht] at hmark hall
    rcases hmark with hc | hc
    · exact (hmarked t hall).1 (List.mem_of_ne_of_mem (by decide) hc)
    · exact (hmarked t hall).2 (List.mem_of_ne_of_mem (by decide) hc)
  rw [Json.ofWord, if_neg hnull, if_neg hdigits, if_neg hneg, h.read]
  rfl

/-! ## Blocks -/

/-- Items between commas, at least one, up to a closing bracket. -/
def readSeq (closing : Char) (item : List Char → Option (α × List Char)) :
    ℕ → List Char → Option (List α × List Char)
  | 0, _ => none
  | n + 1, s => do
    let (a, s) ← item s
    match skipSpace s with
    | [] => none
    | c :: s =>
      if c = closing then some ([a], s)
      else if c = ',' then do
        let (as, s) ← readSeq closing item n s
        some (a :: as, s)
      else none

/-- The inside of an array or object, with the closing bracket. -/
def readBlock (closing : Char) (item : List Char → Option (α × List Char)) (n : ℕ)
    (s : List Char) : Option (List α × List Char) :=
  if (skipSpace s).head? = some closing then some ([], (skipSpace s).tail)
  else readSeq closing item n s

lemma skipSpace_append {space : List Char} (h : ∀ c ∈ space, isSpace c = true) (s : List Char) :
    skipSpace (space ++ s) = skipSpace s := List.dropWhile_append_of_pos h

lemma skipSpace_cons {c : Char} (h : isSpace c = false) (s : List Char) :
    skipSpace (c :: s) = c :: s := List.dropWhile_cons_of_neg (by simp [h])

lemma isSpace_of_mem_newline {depth : ℕ} {c : Char} (h : c ∈ newline depth) :
    isSpace c = true := by
  rcases List.mem_cons.mp h with rfl | h
  · rfl
  · rw [List.eq_of_mem_replicate h]
    rfl

/-- The item reader reads a part, wherever it stands in a block. -/
def Reads (item : List Char → Option (α × List Char)) (depth : ℕ) (a : α) (part : List Char) :
    Prop :=
  ∀ rest, Ends rest → item (newline depth ++ part ++ rest) = some (a, rest)

lemma ends_cons {c : Char} (h : isWordChar c = false) (s : List Char) : Ends (c :: s) := by
  rintro d ⟨⟩
  exact h

/-- The parts after the first one, each with the comma before it. -/
lemma intercalate_cons (c : Char) (x : List Char) (xs : List (List Char)) :
    [c].intercalate (x :: xs) = x ++ xs.flatMap (c :: ·) := by
  induction xs generalizing x with
  | nil => simp
  | cons y ys ih => simp [ih]

/-- The parts of a block are read back. -/
lemma readSeq_parts {closing : Char} {item : List Char → Option (α × List Char)} {depth : ℕ}
    (hspace : isSpace closing = false) (hcomma : closing ≠ ',') {a : α} {part : List Char}
    {as : List α} {parts : List (List Char)} (ha : Reads item (depth + 1) a part)
    (h : List.Forall₂ (Reads item (depth + 1)) as parts) {n : ℕ} (hn : parts.length < n)
    (rest : List Char) :
    readSeq closing item n (newline (depth + 1) ++ part ++
      ((parts.flatMap fun p => ',' :: (newline (depth + 1) ++ p)) ++
        newline depth ++ closing :: rest)) = some (a :: as, rest) := by
  induction h generalizing a part n with
  | nil =>
    cases n with
    | zero => exact absurd hn (Nat.not_lt_zero _)
    | succ n =>
      have hread := ha (newline depth ++ closing :: rest) (ends_cons rfl _)
      have hskip : skipSpace (newline depth ++ closing :: rest) = closing :: rest := by
        rw [skipSpace_append (fun _ hc => isSpace_of_mem_newline hc), skipSpace_cons hspace]
      rw [List.flatMap_nil, List.nil_append, readSeq, hread]
      simp [hskip]
  | @cons b next as parts hb h ih =>
    cases n with
    | zero => exact absurd hn (Nat.not_lt_zero _)
    | succ n =>
      have hrest := ih hb (Nat.lt_of_succ_lt_succ hn)
      have hskip : ∀ s, skipSpace (',' :: s) = ',' :: s := skipSpace_cons rfl
      have htext : (((next :: parts).flatMap fun p => ',' :: (newline (depth + 1) ++ p)) ++
          newline depth ++ closing :: rest) =
          ',' :: (newline (depth + 1) ++ next ++
            ((parts.flatMap fun p => ',' :: (newline (depth + 1) ++ p)) ++
              newline depth ++ closing :: rest)) := by
        simp
      have hread := ha (',' :: (newline (depth + 1) ++ next ++
        ((parts.flatMap fun p => ',' :: (newline (depth + 1) ++ p)) ++
          newline depth ++ closing :: rest))) (ends_cons rfl _)
      rw [htext, readSeq, hread]
      simp only [Option.bind_eq_bind, Option.bind_some, hskip]
      rw [if_neg (Ne.symm hcomma), if_true, hrest]
      rfl

/-- The text of a part begins with something else than the closing bracket. -/
def Starts (closing : Char) (part : List Char) : Prop :=
  ∃ c t, part = c :: t ∧ isSpace c = false ∧ c ≠ closing

/-- **A block is read back**, with the items in order, up to its closing bracket. -/
lemma readBlock_block (opening : Char) {closing : Char}
    {item : List Char → Option (α × List Char)} {depth : ℕ} (hspace : isSpace closing = false)
    (hcomma : closing ≠ ',') {as : List α} {parts : List (List Char)}
    (h : List.Forall₂ (Reads item (depth + 1)) as parts)
    (hstarts : ∀ part ∈ parts, Starts closing part) {n : ℕ} (hn : parts.length ≤ n)
    (rest : List Char) :
    readBlock closing item n ((block opening closing depth parts).tail ++ rest) =
      some (as, rest) := by
  cases h with
  | nil => simp [block, readBlock, skipSpace_cons hspace]
  | @cons a part as parts ha h =>
    have htext : (block opening closing depth (part :: parts)).tail ++ rest =
        newline (depth + 1) ++ part ++ ((parts.flatMap fun p => ',' :: (newline (depth + 1) ++ p)) ++
          newline depth ++ closing :: rest) := by
      simp [block, intercalate_cons, List.flatMap_map]
    obtain ⟨c, t, rfl, hc, hne⟩ := hstarts part List.mem_cons_self
    have hhead : ∀ s, (skipSpace (newline (depth + 1) ++ c :: t ++ s)).head? = some c := fun s => by
      rw [List.append_assoc, skipSpace_append (fun _ hd => isSpace_of_mem_newline hd),
        List.cons_append, skipSpace_cons hc, List.head?_cons]
    rw [htext, readBlock, hhead, if_neg fun heq => hne (Option.some.inj heq),
      readSeq_parts hspace hcomma ha h hn]

/-! ## Values -/

/-- A field of an object, with the value read by `value`. -/
def readField (value : List Char → Option (Json φ × List Char)) (s : List Char) :
    Option ((List Char × Json φ) × List Char) :=
  match skipSpace s with
  | '"' :: s => do
    let (key, s) ← readString s
    match skipSpace s with
    | ':' :: s => do
      let (v, s) ← value s
      some ((key, v), s)
    | _ => none
  | _ => none

variable (readFloat) in
/-- A value at the front of a text, at most `n` brackets and items deep, and what follows it. -/
def readValue : ℕ → List Char → Option (Json φ × List Char)
  | 0, _ => none
  | n + 1, s =>
    match skipSpace s with
    | '"' :: s => (readString s).map fun (text, s) => (.str text, s)
    | '[' :: s => (readBlock ']' (readValue n) n s).map fun (items, s) => (.arr items, s)
    | '\x7b' :: s =>
      (readBlock '\x7d' (readField (readValue n)) n s).map fun (fields, s) => (.obj fields, s)
    | s => readWord readFloat s

mutual

/-- A value as it is read back: an integer that is not negative is a natural number. -/
def canonical : Json φ → Json φ
  | .null => .null
  | .nat n => .nat n
  | .int i => if i < 0 then .int i else .nat i.natAbs
  | .float x => .float x
  | .str s => .str s
  | .arr items => .arr (canonicalItems items)
  | .obj fields => .obj (canonicalFields fields)

def canonicalItems : List (Json φ) → List (Json φ)
  | [] => []
  | v :: items => canonical v :: canonicalItems items

def canonicalFields : List (List Char × Json φ) → List (List Char × Json φ)
  | [] => []
  | (key, v) :: fields => (key, canonical v) :: canonicalFields fields

end

lemma canonicalItems_eq_map (items : List (Json φ)) :
    canonicalItems items = items.map canonical := by
  induction items with
  | nil => rfl
  | cons v items ih => rw [canonicalItems, ih, List.map_cons]

mutual

/-- The floating-point numbers in a value. -/
def floats : Json φ → List φ
  | .float x => [x]
  | .arr items => floatsItems items
  | .obj fields => floatsFields fields
  | _ => []

def floatsItems : List (Json φ) → List φ
  | [] => []
  | v :: items => floats v ++ floatsItems items

def floatsFields : List (List Char × Json φ) → List φ
  | [] => []
  | (_, v) :: fields => floats v ++ floatsFields fields

end

lemma mem_floatsItems {x : φ} {items : List (Json φ)} :
    x ∈ floatsItems items ↔ ∃ v ∈ items, x ∈ v.floats := by
  induction items with
  | nil => simp [floatsItems]
  | cons v items ih => simp [floatsItems, ih]

lemma mem_floatsFields {x : φ} {fields : List (List Char × Json φ)} :
    x ∈ floatsFields fields ↔ ∃ field ∈ fields, x ∈ field.2.floats := by
  induction fields with
  | nil => simp [floatsFields]
  | cons field fields ih => simp [floatsFields, ih]

/-! ## Values are read back -/

/-- A word does not begin like a string, a block or the end of one. -/
lemma eq_cons_of_word {w : List Char} (hw : ∀ c ∈ w, isWordChar c = true) (hne : w ≠ []) :
    ∃ c t, w = c :: t ∧ isSpace c = false ∧ c ∉ ['"', '[', ']', '\x7b', '\x7d'] := by
  obtain ⟨c, t, rfl⟩ := List.exists_cons_of_ne_nil hne
  have hc : isWordChar c = true := hw c List.mem_cons_self
  refine ⟨c, t, rfl, ?_, fun hmem => ?_⟩
  · rw [Bool.eq_false_iff]
    intro hspace
    simp only [isSpace, Bool.or_eq_true, decide_eq_true_eq] at hspace
    rcases hspace with ((rfl | rfl) | rfl) | rfl <;> exact absurd hc (by decide)
  · simp only [List.mem_cons, List.not_mem_nil, or_false] at hmem
    rcases hmem with rfl | rfl | rfl | rfl | rfl <;> exact absurd hc (by decide)

lemma readValue_word {w : List Char} (hw : ∀ c ∈ w, isWordChar c = true) (hne : w ≠ [])
    {space rest : List Char} (hspace : ∀ c ∈ space, isSpace c = true) (hrest : Ends rest) {n : ℕ}
    (hn : w.length ≤ n) {v : Json φ} (hv : ofWord readFloat w = some v) :
    readValue readFloat n (space ++ w ++ rest) = some (v, rest) := by
  obtain ⟨c, t, rfl, hc, hmem⟩ := eq_cons_of_word hw hne
  have hskip : skipSpace (space ++ (c :: t) ++ rest) = c :: (t ++ rest) := by
    rw [List.append_assoc, skipSpace_append hspace, List.cons_append, skipSpace_cons hc]
  have hread : readWord readFloat (c :: (t ++ rest)) = some (v, rest) := by
    rw [← List.cons_append, readWord_append readFloat hw hrest, hv]
    rfl
  cases n with
  | zero => exact absurd hn (Nat.not_succ_le_zero _)
  | succ n =>
    rw [readValue, hskip]
    split
    · rename_i heq
      exact absurd (List.cons.inj heq).1 (by rintro rfl; simp at hmem)
    · rename_i heq
      exact absurd (List.cons.inj heq).1 (by rintro rfl; simp at hmem)
    · rename_i heq
      exact absurd (List.cons.inj heq).1 (by rintro rfl; simp at hmem)
    · exact hread

/-- Neither a string nor a block. -/
def scalar : Json φ → Bool
  | .str _ | .arr _ | .obj _ => false
  | _ => true

/-- Such a value is written as a word. -/
lemma word_pretty {v : Json φ} (hv : v.scalar = true)
    (h : ∀ x ∈ v.floats, ReadsBack readFloat showFloat x) (depth : ℕ) :
    (∀ c ∈ pretty showFloat depth v, isWordChar c = true) ∧ pretty showFloat depth v ≠ [] ∧
      ofWord readFloat (pretty showFloat depth v) = some v.canonical := by
  cases v with
  | null =>
    rw [pretty, canonical]
    exact ⟨List.all_eq_true.mp (by decide), by decide, if_pos rfl⟩
  | nat n =>
    rw [pretty, canonical]
    exact ⟨fun c hc => isWordChar_of_isDigit (isDigit_of_mem hc), Nat.toDigits_ne_nil,
      ofWord_toDigits readFloat n⟩
  | int i =>
    rw [pretty, canonical]
    split
    · rename_i hneg
      have habs : -(i.natAbs : ℤ) = i := by omega
      refine ⟨List.forall_mem_cons.mpr ⟨rfl, fun c hc => ?_⟩, List.cons_ne_nil _ _, ?_⟩
      · exact isWordChar_of_isDigit (isDigit_of_mem hc)
      · rw [ofWord_neg, habs]
    · exact ⟨fun c hc => isWordChar_of_isDigit (isDigit_of_mem hc), Nat.toDigits_ne_nil,
        ofWord_toDigits readFloat _⟩
  | float x =>
    have hx : ReadsBack readFloat showFloat x := h x (by simp [floats])
    rw [pretty, canonical]
    refine ⟨hx.word, fun hnil => ?_, hx.ofWord⟩
    have hmarked := hx.marked
    simp [hnil] at hmarked
  | str | arr | obj => exact absurd hv Bool.false_ne_true

lemma starts_pretty {closing : Char} (hclosing : closing ∈ [']', '\x7d']) {v : Json φ}
    (h : ∀ x ∈ v.floats, ReadsBack readFloat showFloat x) (depth : ℕ) :
    Starts closing (pretty showFloat depth v) := by
  have hne : closing ≠ '"' ∧ closing ≠ '[' ∧ closing ≠ '\x7b' := by
    simp only [List.mem_cons, List.not_mem_nil, or_false] at hclosing
    rcases hclosing with rfl | rfl <;> decide
  cases hv : v.scalar with
  | true =>
    obtain ⟨hword, hne, -⟩ := word_pretty hv h depth
    obtain ⟨c, t, heq, hc, hmem⟩ := eq_cons_of_word hword hne
    refine ⟨c, t, heq, hc, ?_⟩
    rintro rfl
    simp only [List.mem_cons, List.not_mem_nil, or_false] at hclosing
    rcases hclosing with rfl | rfl <;> simp at hmem
  | false =>
    cases v with
    | str text =>
      rw [pretty]
      exact ⟨_, _, List.cons_append, rfl, hne.1.symm⟩
    | arr items =>
      rw [pretty, block]
      split <;> exact ⟨_, _, rfl, rfl, hne.2.1.symm⟩
    | obj fields =>
      rw [pretty, block]
      split <;> exact ⟨_, _, rfl, rfl, hne.2.2.symm⟩
    | null | nat | int | float => exact absurd hv.symm Bool.false_ne_true

lemma readValue_scalar {v : Json φ} (hv : v.scalar = true)
    (h : ∀ x ∈ v.floats, ReadsBack readFloat showFloat x) (depth : ℕ) {n : ℕ}
    (hn : (pretty showFloat depth v).length ≤ n) {space : List Char}
    (hspace : ∀ c ∈ space, isSpace c = true) {rest : List Char} (hrest : Ends rest) :
    readValue readFloat n (space ++ pretty showFloat depth v ++ rest) =
      some (v.canonical, rest) := by
  obtain ⟨hword, hne, hread⟩ := word_pretty hv h depth
  exact readValue_word hword hne hspace hrest hn hread

/-- Every part of a block is shorter than the block, and so is their number. -/
lemma le_length_block (opening closing : Char) (depth : ℕ) (parts : List (List Char)) :
    parts.length < (block opening closing depth parts).length ∧
      ∀ part ∈ parts, part.length < (block opening closing depth parts).length := by
  have hflat : ∀ ps : List (List Char),
      let text := ps.flatMap fun p => ',' :: (newline (depth + 1) ++ p)
      ps.length ≤ text.length ∧ ∀ p ∈ ps, p.length ≤ text.length := by
    intro ps
    induction ps with
    | nil => simp
    | cons p ps ih =>
      simp only [List.flatMap_cons, List.length_cons, List.length_append, List.mem_cons]
      refine ⟨by omega, ?_⟩
      rintro q (rfl | hq)
      · omega
      · have := ih.2 q hq
        omega
  cases parts with
  | nil => simp [block]
  | cons p ps =>
    have hrest := hflat ps
    rw [block, if_neg (List.cons_ne_nil _ _), List.map_cons, intercalate_cons, List.flatMap_map]
    simp only [List.length_cons, List.length_append, List.mem_cons]
    refine ⟨by omega, ?_⟩
    rintro q (rfl | hq)
    · omega
    · have := hrest.2 q hq
      omega

/-- Behind white space, a block begins with its bracket. -/
lemma skipSpace_block {opening : Char} (hopening : isSpace opening = false) (closing : Char)
    (depth : ℕ) (parts : List (List Char)) {space : List Char}
    (hspace : ∀ c ∈ space, isSpace c = true) (rest : List Char) :
    skipSpace (space ++ block opening closing depth parts ++ rest) =
      opening :: ((block opening closing depth parts).tail ++ rest) := by
  have hcons : block opening closing depth parts =
      opening :: (block opening closing depth parts).tail := by
    rw [block]
    split <;> rfl
  rw [List.append_assoc, skipSpace_append hspace, hcons, List.cons_append, skipSpace_cons hopening,
    List.tail_cons]

lemma starts_prettyItems {closing : Char} (hclosing : closing ∈ [']', '\x7d'])
    {items : List (Json φ)} (h : ∀ x ∈ floatsItems items, ReadsBack readFloat showFloat x)
    (depth : ℕ) : ∀ part ∈ prettyItems showFloat depth items, Starts closing part := by
  induction items with
  | nil => exact fun _ hpart => absurd hpart List.not_mem_nil
  | cons v items ih =>
    rw [floatsItems, List.forall_mem_append] at h
    rw [prettyItems, List.forall_mem_cons]
    exact ⟨starts_pretty hclosing h.1 depth, ih h.2⟩

lemma starts_prettyFields (depth : ℕ) (fields : List (List Char × Json φ)) :
    ∀ part ∈ prettyFields showFloat depth fields, Starts '\x7d' part := by
  induction fields with
  | nil => exact fun _ hpart => absurd hpart List.not_mem_nil
  | cons field fields ih =>
    rw [prettyFields, List.forall_mem_cons]
    exact ⟨⟨'"', _, rfl, rfl, by decide⟩, ih⟩

/-- A field is read back if its value is. -/
lemma readField_pretty {value : List Char → Option (Json φ × List Char)} (key : List Char)
    (depth : ℕ) {text rest : List Char} {v : Json φ}
    (h : value ([' '] ++ text ++ rest) = some (v, rest)) :
    readField value (newline depth ++ (quote key ++ [':', ' '] ++ text) ++ rest) =
      some ((key, v), rest) := by
  have hskip : skipSpace (newline depth ++ (quote key ++ [':', ' '] ++ text) ++ rest) =
      '"' :: (key.flatMap escapeChar ++ '"' :: ':' :: ([' '] ++ text ++ rest)) := by
    rw [List.append_assoc, skipSpace_append (fun _ hc => isSpace_of_mem_newline hc), quote,
      List.cons_append, List.cons_append, List.cons_append, List.cons_append, skipSpace_cons rfl]
    simp
  have hcolon : skipSpace (':' :: ([' '] ++ text ++ rest)) = ':' :: ([' '] ++ text ++ rest) :=
    skipSpace_cons rfl _
  rw [readField, hskip]
  simp only [readString_quote, Option.bind_eq_bind, Option.bind_some, hcolon, h]

mutual

/-- **Values are read back**, up to where they end. -/
theorem readValue_pretty : ∀ (v : Json φ) (depth : ℕ) {n : ℕ},
    (∀ x ∈ v.floats, ReadsBack readFloat showFloat x) →
    (pretty showFloat depth v).length ≤ n →
    ∀ {space : List Char}, (∀ c ∈ space, isSpace c = true) → ∀ {rest : List Char}, Ends rest →
      readValue readFloat n (space ++ pretty showFloat depth v ++ rest) = some (v.canonical, rest)
  | .null, depth, _, hfloats, hn, _, hspace, _, hrest =>
    readValue_scalar rfl hfloats depth hn hspace hrest
  | .nat _, depth, _, hfloats, hn, _, hspace, _, hrest =>
    readValue_scalar rfl hfloats depth hn hspace hrest
  | .int _, depth, _, hfloats, hn, _, hspace, _, hrest =>
    readValue_scalar rfl hfloats depth hn hspace hrest
  | .float _, depth, _, hfloats, hn, _, hspace, _, hrest =>
    readValue_scalar rfl hfloats depth hn hspace hrest
  | .str text, depth, n, _, hn, space, hspace, rest, _ => by
    cases n with
    | zero => simp [pretty, quote] at hn
    | succ n =>
      have hskip : skipSpace (space ++ pretty showFloat depth (.str text) ++ rest) =
          '"' :: (text.flatMap escapeChar ++ '"' :: rest) := by
        rw [List.append_assoc, skipSpace_append hspace, pretty, quote, List.cons_append,
          List.cons_append, skipSpace_cons rfl, List.append_assoc, List.singleton_append]
      rw [readValue, hskip]
      show (readString _).map _ = _
      rw [readString_quote]
      rfl
  | .arr items, depth, n, hfloats, hn, space, hspace, rest, _ => by
    rw [pretty] at hn ⊢
    obtain ⟨hcount, hparts⟩ :=
      le_length_block '[' ']' depth (prettyItems showFloat (depth + 1) items)
    cases n with
    | zero => omega
    | succ n =>
      have hread := reads_prettyItems items (depth + 1) hfloats fun part hpart =>
        Nat.le_of_lt_succ ((hparts part hpart).trans_le hn)
      rw [readValue, skipSpace_block rfl _ _ _ hspace]
      show (readBlock ']' _ n _).map _ = _
      rw [readBlock_block '[' rfl (by decide) hread
        (starts_prettyItems (by decide) hfloats (depth + 1)) (by omega)]
      rfl
  | .obj fields, depth, n, hfloats, hn, space, hspace, rest, _ => by
    rw [pretty] at hn ⊢
    obtain ⟨hcount, hparts⟩ :=
      le_length_block '\x7b' '\x7d' depth (prettyFields showFloat (depth + 1) fields)
    cases n with
    | zero => omega
    | succ n =>
      have hread := reads_prettyFields fields (depth + 1) hfloats fun part hpart =>
        Nat.le_of_lt_succ ((hparts part hpart).trans_le hn)
      rw [readValue, skipSpace_block rfl _ _ _ hspace]
      show (readBlock '\x7d' _ n _).map _ = _
      rw [readBlock_block '\x7b' rfl (by decide) hread
        (starts_prettyFields (depth + 1) fields) (by omega)]
      rfl

theorem reads_prettyItems : ∀ (items : List (Json φ)) (depth : ℕ) {n : ℕ},
    (∀ x ∈ floatsItems items, ReadsBack readFloat showFloat x) →
    (∀ part ∈ prettyItems showFloat depth items, part.length ≤ n) →
    List.Forall₂ (Reads (readValue readFloat n) depth) (canonicalItems items)
      (prettyItems showFloat depth items)
  | [], _, _, _, _ => .nil
  | v :: items, depth, n, hfloats, hn => by
    rw [floatsItems, List.forall_mem_append] at hfloats
    rw [prettyItems, List.forall_mem_cons] at hn
    rw [canonicalItems, prettyItems]
    exact .cons (fun rest hrest => readValue_pretty v depth hfloats.1 hn.1
      (fun _ hc => isSpace_of_mem_newline hc) hrest) (reads_prettyItems items depth hfloats.2 hn.2)

theorem reads_prettyFields : ∀ (fields : List (List Char × Json φ)) (depth : ℕ) {n : ℕ},
    (∀ x ∈ floatsFields fields, ReadsBack readFloat showFloat x) →
    (∀ part ∈ prettyFields showFloat depth fields, part.length ≤ n) →
    List.Forall₂ (Reads (readField (readValue readFloat n)) depth) (canonicalFields fields)
      (prettyFields showFloat depth fields)
  | [], _, _, _, _ => .nil
  | (key, v) :: fields, depth, n, hfloats, hn => by
    rw [floatsFields, List.forall_mem_append] at hfloats
    rw [prettyFields, List.forall_mem_cons] at hn
    rw [canonicalFields, prettyFields]
    refine .cons (fun rest hrest => ?_) (reads_prettyFields fields depth hfloats.2 hn.2)
    have hlength : (pretty showFloat depth v).length ≤ n := by
      have := hn.1
      simp only [List.length_append] at this
      omega
    exact readField_pretty key depth (readValue_pretty v depth hfloats.1 hlength
      (List.forall_mem_singleton.mpr rfl) hrest)

end

/-! ## Looking into a value -/

/-- The value of a field. -/
def field (name : String) : Json φ → Option (Json φ)
  | .obj fields => (fields.find? fun field => field.1 = name.toList).map Prod.snd
  | _ => none

def asStr : Json φ → Option (List Char)
  | .str s => some s
  | _ => none

def asNat : Json φ → Option ℕ
  | .nat n => some n
  | _ => none

def asInt : Json φ → Option ℤ
  | .nat n => some n
  | .int i => some i
  | _ => none

def asFloat : Json φ → Option φ
  | .float x => some x
  | _ => none

/-- An array of which every item can be looked into. -/
def asList (item : Json φ → Option α) : Json φ → Option (List α)
  | .arr items => items.mapM item
  | _ => none

/-- A part that may be absent. -/
def asOption (part : Json φ → Option α) : Json φ → Option (Option α)
  | .null => some none
  | v => (part v).map some

@[simp] lemma asStr_canonical_str (s : List Char) : (canonical (.str s : Json φ)).asStr = some s :=
  rfl

@[simp] lemma asNat_canonical_nat (n : ℕ) : (canonical (.nat n : Json φ)).asNat = some n := rfl

@[simp] lemma asFloat_canonical_float (x : φ) : (canonical (.float x)).asFloat = some x := rfl

@[simp] lemma asInt_canonical_int (i : ℤ) : (canonical (.int i : Json φ)).asInt = some i := by
  rw [canonical]
  split
  · rfl
  · rename_i h
    exact congrArg some (Int.natAbs_of_nonneg (Int.not_lt.mp h))

/-- Items that are read back one by one are read back together. -/
lemma mapM_map_eq_some {β : Type} {write : α → β} {read : β → Option α}
    (h : ∀ a, read (write a) = some a) (as : List α) : (as.map write).mapM read = some as := by
  induction as with
  | nil => rfl
  | cons a as ih => rw [List.map_cons, List.mapM_cons, h, ih]; rfl

lemma asList_canonical_arr {write : α → Json φ} {item : Json φ → Option α}
    (h : ∀ a, item (write a).canonical = some a) (as : List α) :
    (canonical (.arr (as.map write))).asList item = some as := by
  rw [canonical, asList, canonicalItems_eq_map, List.map_map]
  exact mapM_map_eq_some h as

/-! ## Streams -/

section Streams
variable (readFloat : List Char → Option φ)

/-- The values of a text that has at most `n` of them, one after the other. -/
def readValues : ℕ → List Char → Option (List (Json φ))
  | 0, s => if skipSpace s = [] then some [] else none
  | n + 1, s =>
    if skipSpace s = [] then some []
    else do
      let (v, s) ← readValue readFloat s.length s
      let vs ← readValues n s
      some (v :: vs)

/-- The values of a text. -/
def readStream (s : List Char) : Option (List (Json φ)) := readValues readFloat s.length s

end Streams

/-- Values are read one after the other. -/
lemma readValues_unlines {vs : List (Json φ)}
    (h : ∀ v ∈ vs, ∀ x ∈ v.floats, ReadsBack readFloat showFloat x) {n : ℕ} (hn : vs.length ≤ n)
    {space : List Char} (hspace : ∀ c ∈ space, isSpace c = true) :
    readValues readFloat n (space ++ Framing.unlines '\n' (vs.map (pretty showFloat 0))) =
      some (vs.map canonical) := by
  induction vs generalizing n space with
  | nil =>
    have hskip : skipSpace (space ++ []) = [] := skipSpace_append hspace []
    cases n <;> exact if_pos hskip
  | cons v vs ih =>
    obtain ⟨hv, hvs⟩ := List.forall_mem_cons.mp h
    cases n with
    | zero => exact absurd hn (Nat.not_succ_le_zero _)
    | succ n =>
      have htext : space ++ Framing.unlines '\n' ((v :: vs).map (pretty showFloat 0)) =
          space ++ pretty showFloat 0 v ++
            '\n' :: Framing.unlines '\n' (vs.map (pretty showFloat 0)) := by
        rw [List.map_cons, Framing.unlines_cons, List.append_assoc]
      have hskip : ∀ rest, skipSpace (space ++ pretty showFloat 0 v ++ rest) ≠ [] := by
        intro rest
        obtain ⟨c, t, hcons, hc, -⟩ :=
          starts_pretty (List.mem_cons_self : ']' ∈ [']', '\x7d']) hv 0
        rw [hcons, List.append_assoc, skipSpace_append hspace, List.cons_append, skipSpace_cons hc]
        exact List.cons_ne_nil _ _
      have hread : ∀ rest, readValue readFloat (space ++ pretty showFloat 0 v ++ '\n' :: rest).length
          (space ++ pretty showFloat 0 v ++ '\n' :: rest) = some (v.canonical, '\n' :: rest) := by
        intro rest
        refine readValue_pretty v 0 hv ?_ hspace (ends_cons rfl rest)
        simp only [List.length_append]
        omega
      have hrest := ih hvs (Nat.le_of_succ_le_succ hn) (List.forall_mem_singleton.mpr
        (rfl : isSpace '\n' = true))
      rw [htext, readValues, if_neg (hskip _), hread]
      simp only [Option.bind_eq_bind, Option.bind_some]
      rw [← List.singleton_append, hrest]
      rfl

/-- **A stream is taken apart**, although its values take many lines each. -/
theorem readStream_unlines {vs : List (Json φ)}
    (h : ∀ v ∈ vs, ∀ x ∈ v.floats, ReadsBack readFloat showFloat x) :
    readStream readFloat (Framing.unlines '\n' (vs.map (pretty showFloat 0))) =
      some (vs.map canonical) := by
  have hcount : vs.length ≤ (Framing.unlines '\n' (vs.map (pretty showFloat 0))).length := by
    have hlength := Framing.length_le_length_unlines '\n' (vs.map (pretty showFloat 0))
    rwa [List.length_map] at hlength
  exact readValues_unlines h hcount (fun _ hc => absurd hc List.not_mem_nil)

end Json
