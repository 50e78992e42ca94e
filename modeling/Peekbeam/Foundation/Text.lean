import Mathlib.Data.List.DropRight
import Mathlib.Data.Nat.Notation
import Mathlib.Tactic.Lemma

/-!
# Text processing

The operations on strings that readers of line-oriented text files are made of, for strings as
lists of characters: `lines`, `trim`, `splitWhitespace`, the search for a character and the parsing
of unsigned decimal numbers.  `splitWhitespace_intercalate` reads the words of a text back,
`filterMap_lines_decimals` a file of decimal numbers.
-/

namespace Str

/-! ## White space and words -/

/-- The characters of Unicode's `White_Space` property. -/
def isWhitespace (c : Char) : Bool :=
  let n := c.toNat
  (9 ≤ n ∧ n ≤ 13) ∨ n = 32 ∨ n = 0x85 ∨ n = 0xA0 ∨ n = 0x1680 ∨ (0x2000 ≤ n ∧ n ≤ 0x200A) ∨
    n = 0x2028 ∨ n = 0x2029 ∨ n = 0x202F ∨ n = 0x205F ∨ n = 0x3000

/-- The text without white space at its ends. -/
def trim (s : List Char) : List Char := (s.dropWhile isWhitespace).rdropWhile isWhitespace

/-- The maximal runs of characters that are not white space. -/
def splitWhitespace (s : List Char) : List (List Char) :=
  (s.splitOnP isWhitespace).filter (· ≠ [])

lemma trim_of_not_whitespace {s : List Char} (h : ∀ c ∈ s, isWhitespace c = false) :
    trim s = s := by
  have hdrop : s.dropWhile isWhitespace = s := by
    cases s with
    | nil => rfl
    | cons c s => simp [h c (by simp)]
  rw [trim, hdrop, List.rdropWhile_eq_self_iff]
  intro hne
  simp [h _ (List.getLast_mem hne)]

/-- White space at the end is trimmed. -/
lemma trim_append {s ws : List Char} (hs : ∀ c ∈ s, isWhitespace c = false)
    (hws : ∀ c ∈ ws, isWhitespace c = true) : trim (s ++ ws) = s := by
  have hend : (s ++ ws).rdropWhile isWhitespace = s := by
    rw [List.rdropWhile, List.reverse_append, List.dropWhile_append_of_pos fun c hc =>
      hws c (List.mem_reverse.mp hc), ← List.rdropWhile]
    rw [List.rdropWhile_eq_self_iff]
    exact fun hne => by simp [hs _ (List.getLast_mem hne)]
  cases s with
  | nil =>
    have hdrop : ws.dropWhile isWhitespace = [] := List.dropWhile_eq_nil_iff.mpr hws
    rw [trim, List.nil_append, hdrop]
    rfl
  | cons c s =>
    rw [trim, List.cons_append, List.dropWhile_cons_of_neg (by simp [hs c (by simp)]),
      ← List.cons_append, hend]

/-- A word: some characters, none of them white space. -/
def IsWord (s : List Char) : Prop := s ≠ [] ∧ ∀ c ∈ s, isWhitespace c = false

instance (s : List Char) : Decidable (IsWord s) := inferInstanceAs (Decidable (_ ∧ _))

@[simp] lemma splitWhitespace_nil : splitWhitespace [] = [] := by
  simp [splitWhitespace]

/-- White space between words is skipped. -/
lemma splitWhitespace_cons {c : Char} (h : isWhitespace c = true) (s : List Char) :
    splitWhitespace (c :: s) = splitWhitespace s := by
  have hsplit := List.splitOnP_append_cons (p := isWhitespace) [] s h
  simp only [List.nil_append, List.splitOnP_nil] at hsplit
  simp [splitWhitespace, hsplit]

lemma splitWhitespace_of_whitespace {s : List Char} (h : ∀ c ∈ s, isWhitespace c = true) :
    splitWhitespace s = [] := by
  induction s with
  | nil => exact splitWhitespace_nil
  | cons c s ih =>
    rw [splitWhitespace_cons (h c (by simp)), ih fun d hd => h d (List.mem_cons_of_mem _ hd)]

/-- A word is read up to the white space after it. -/
lemma splitWhitespace_append_cons {w : List Char} (hw : IsWord w) {c : Char}
    (h : isWhitespace c = true) (s : List Char) :
    splitWhitespace (w ++ c :: s) = w :: splitWhitespace s := by
  rw [splitWhitespace, List.splitOnP_append_cons_of_forall_mem hw.2 c h,
    List.filter_cons_of_pos (by simpa using hw.1), splitWhitespace]

/-- The last word of a text. -/
lemma splitWhitespace_append {w s : List Char} (hw : IsWord w)
    (hs : ∀ c ∈ s, isWhitespace c = true) : splitWhitespace (w ++ s) = [w] := by
  cases s with
  | nil =>
    rw [List.append_nil, splitWhitespace, List.splitOnP_eq_singleton hw.2]
    simpa using hw.1
  | cons c s =>
    rw [splitWhitespace_append_cons hw (hs c (by simp)),
      splitWhitespace_of_whitespace fun d hd => hs d (List.mem_cons_of_mem _ hd)]

/-- A text of words has no other characters than theirs and the separator. -/
lemma mem_of_mem_intercalate {c d : Char} {ws : List (List Char)} (h : d ∈ [c].intercalate ws) :
    d = c ∨ ∃ w ∈ ws, d ∈ w := by
  induction ws with
  | nil => simp [List.intercalate] at h
  | cons w ws ih =>
    cases ws with
    | nil =>
      have hd : d ∈ w := by simpa [List.intercalate] using h
      exact Or.inr ⟨w, by simp, hd⟩
    | cons v ws =>
      have hd : d ∈ w ∨ d = c ∨ d ∈ [c].intercalate (v :: ws) := by
        simpa [List.intercalate] using h
      rcases hd with hd | hd | hd
      · exact Or.inr ⟨w, by simp, hd⟩
      · exact Or.inl hd
      · rcases ih hd with hd | ⟨u, hu, hd⟩
        · exact Or.inl hd
        · exact Or.inr ⟨u, List.mem_cons_of_mem _ hu, hd⟩

/-- Words are read back from a text of them, whatever white space ends it. -/
lemma splitWhitespace_intercalate {ws : List (List Char)} (hws : ∀ w ∈ ws, IsWord w) {c : Char}
    (hc : isWhitespace c = true) {s : List Char} (hs : ∀ c ∈ s, isWhitespace c = true) :
    splitWhitespace ([c].intercalate ws ++ s) = ws := by
  induction ws with
  | nil => exact splitWhitespace_of_whitespace hs
  | cons w ws ih =>
    have hw := hws w (by simp)
    have ih := ih fun v hv => hws v (List.mem_cons_of_mem _ hv)
    cases ws with
    | nil => simpa [List.intercalate] using splitWhitespace_append hw hs
    | cons v ws =>
      have hjoin : [c].intercalate (w :: v :: ws) ++ s =
          w ++ c :: ([c].intercalate (v :: ws) ++ s) := by
        simp [List.intercalate]
      rw [hjoin, splitWhitespace_append_cons hw hc, ih]

/-! ## Searching -/

/-- The text after the last occurrence of a character. -/
def afterLast (c : Char) (s : List Char) : Option (List Char) :=
  if c ∈ s then some (s.rtakeWhile (· ≠ c)) else none

/-- The last occurrence is the one that no other follows. -/
lemma afterLast_append_cons {c : Char} (pre : List Char) {post : List Char} (h : c ∉ post) :
    afterLast c (pre ++ c :: post) = some post := by
  rw [afterLast, if_pos (by simp)]
  induction post using List.reverseRecOn with
  | nil =>
    rw [List.rtakeWhile_concat_neg]
    simp
  | append_singleton post d ih =>
    obtain ⟨hpost, hd⟩ : c ∉ post ∧ c ≠ d := by simpa using h
    rw [← List.cons_append, ← List.append_assoc, List.rtakeWhile_concat_pos]
    · rw [Option.some.inj (ih hpost)]
    · simpa using Ne.symm hd

/-- What is before and after the first occurrence of a character. -/
def splitOnce (c : Char) (s : List Char) : Option (List Char × List Char) :=
  if c ∈ s then some (s.takeWhile (· ≠ c), (s.dropWhile (· ≠ c)).tail) else none

/-- The first occurrence is the one that follows no other. -/
lemma splitOnce_append_cons {c : Char} {pre : List Char} (h : c ∉ pre) (post : List Char) :
    splitOnce c (pre ++ c :: post) = some (pre, post) := by
  have hpre : ∀ d ∈ pre, decide (d ≠ c) = true := by
    intro d hd
    rw [decide_eq_true_eq]
    rintro rfl
    exact h hd
  rw [splitOnce, if_pos (by simp), List.takeWhile_append_of_pos hpre,
    List.dropWhile_append_of_pos hpre, List.takeWhile_cons_of_neg (by simp),
    List.dropWhile_cons_of_neg (by simp), List.append_nil, List.tail_cons]

/-- What follows a prefix. -/
def stripPrefix (pre s : List Char) : Option (List Char) :=
  if pre.isPrefixOf s then some (s.drop pre.length) else none

lemma stripPrefix_eq_some {pre s post : List Char} :
    stripPrefix pre s = some post ↔ s = pre ++ post := by
  unfold stripPrefix
  split
  · rename_i h
    obtain ⟨rest, rfl⟩ := List.isPrefixOf_iff_prefix.mp h
    simp
  · rename_i h
    constructor
    · exact fun hnone => absurd hnone (by simp)
    · rintro rfl
      exact absurd (List.isPrefixOf_iff_prefix.mpr (List.prefix_append pre post)) h

/-- The first element with the prefix. -/
lemma findSome?_stripPrefix_eq_some {pre post : List Char} {l : List (List Char)} :
    l.findSome? (stripPrefix pre) = some post ↔ l.find? pre.isPrefixOf = some (pre ++ post) := by
  induction l with
  | nil => simp
  | cons s l ih =>
    rw [List.findSome?_cons, List.find?_cons]
    cases hs : pre.isPrefixOf s with
    | true =>
      obtain ⟨rest, rfl⟩ := List.isPrefixOf_iff_prefix.mp hs
      have hstrip : stripPrefix pre (pre ++ rest) = some rest := stripPrefix_eq_some.mpr rfl
      simp [hstrip]
    | false =>
      have hstrip : stripPrefix pre s = none := if_neg (by simp [hs])
      rw [hstrip]
      exact ih

/-- What is before and after the first occurrence of a pattern. -/
def splitOnceAt (pat : List Char) : List Char → Option (List Char × List Char)
  | [] => if pat = [] then some ([], []) else none
  | c :: s =>
    match stripPrefix pat (c :: s) with
    | some post => some ([], post)
    | none => (splitOnceAt pat s).map fun (pre, post) => (c :: pre, post)

/-- The first occurrence is not before the first occurrence of its first character. -/
lemma splitOnceAt_append {c : Char} {pat pre : List Char} (h : c ∉ pre) (post : List Char) :
    splitOnceAt (c :: pat) (pre ++ c :: pat ++ post) = some (pre, post) := by
  induction pre with
  | nil =>
    have hstrip : stripPrefix (c :: pat) (c :: (pat ++ post)) = some post :=
      stripPrefix_eq_some.mpr rfl
    simp [splitOnceAt, hstrip]
  | cons d pre ih =>
    obtain ⟨hne, hpre⟩ : c ≠ d ∧ c ∉ pre := by simpa using h
    have hstrip : stripPrefix (c :: pat) (d :: (pre ++ c :: pat ++ post)) = none := by
      rw [Option.eq_none_iff_forall_ne_some]
      intro rest hrest
      exact hne (List.cons_eq_cons.mp (stripPrefix_eq_some.mp hrest)).1.symm
    show splitOnceAt (c :: pat) (d :: (pre ++ c :: pat ++ post)) = _
    rw [splitOnceAt, hstrip, ih hpre]
    rfl

/-! ## Lines -/

/-- The lines of a text, without the line feed, or carriage return and line feed, that ends each
of them; the last line need not be ended. -/
def lines : List Char → List (List Char)
  | [] => []
  | '\r' :: '\n' :: s => [] :: lines s
  | '\n' :: s => [] :: lines s
  | c :: s =>
    match lines s with
    | [] => [[c]]
    | l :: ls => (c :: l) :: ls

/-! ## Numbers -/

/-- Parse an unsigned decimal number below `bound`: digits, with an optional plus sign. -/
def parseUnsigned (bound : ℕ) (s : List Char) : Option ℕ :=
  let digits := match s with
    | '+' :: digits => digits
    | _ => s
  if digits ≠ [] ∧ digits.all Char.isDigit then
    let n := Nat.ofDigitChars 10 digits 0
    if n < bound then some n else none
  else none

/-! ## Reading decimal numbers back -/

/-- A digit is not white space, nor a sign. -/
lemma of_isDigit {c : Char} (h : c.isDigit = true) :
    isWhitespace c = false ∧ c ≠ '+' ∧ c ≠ '\n' ∧ c ≠ '\r' := by
  have hrange : 48 ≤ c.toNat ∧ c.toNat ≤ 57 := Char.isDigit_iff_toNat.mp h
  refine ⟨?_, ?_, ?_, ?_⟩
  · simp only [isWhitespace]
    simp
    omega
  all_goals
    rintro rfl
    simp at hrange

lemma isDigit_of_mem {n : ℕ} {c : Char} (h : c ∈ Nat.toDigits 10 n) : c.isDigit = true :=
  Nat.isDigit_of_mem_toDigits (by decide) (by decide) h

lemma parseUnsigned_toDigits {bound n : ℕ} (h : n < bound) :
    parseUnsigned bound (Nat.toDigits 10 n) = some n := by
  have hall : (Nat.toDigits 10 n).all Char.isDigit = true :=
    List.all_eq_true.mpr fun c hc => isDigit_of_mem hc
  have hne : Nat.toDigits 10 n ≠ [] := Nat.toDigits_ne_nil
  have hdigits : (match Nat.toDigits 10 n with
      | '+' :: digits => digits
      | _ => Nat.toDigits 10 n) = Nat.toDigits 10 n := by
    split
    · rename_i heq
      have := of_isDigit (isDigit_of_mem (heq ▸ List.mem_cons_self : '+' ∈ Nat.toDigits 10 n))
      simp at this
    · rfl
  simp only [parseUnsigned, hdigits, hne, hall, ne_eq, not_false_eq_true, and_self, if_true,
    Nat.ofDigitChars_ten_toDigits, h]

/-- The text of a number has digits and at most a sign. -/
lemma of_parseUnsigned_isSome {bound : ℕ} {s : List Char} (h : (parseUnsigned bound s).isSome) :
    s ≠ [] ∧ ∀ c ∈ s, c.isDigit = true ∨ c = '+' := by
  have hdigits : ∀ digits : List Char,
      (if digits ≠ [] ∧ digits.all Char.isDigit then
        let n := Nat.ofDigitChars 10 digits 0
        if n < bound then some n else none
      else none).isSome → digits ≠ [] ∧ ∀ c ∈ digits, c.isDigit = true := by
    intro digits hsome
    split at hsome
    · rename_i hall
      exact ⟨hall.1, List.all_eq_true.mp hall.2⟩
    · simp at hsome
  unfold parseUnsigned at h
  obtain ⟨hne, hall⟩ := hdigits _ h
  split at hne
  · refine ⟨by simp, fun c hc => ?_⟩
    rcases List.mem_cons.mp hc with rfl | hc
    · exact Or.inr rfl
    · exact Or.inl (hall c hc)
  · rename_i hsign
    refine ⟨hne, fun c hc => Or.inl (hall c ?_)⟩
    simpa using hc

/-- A line ended by a line feed. -/
lemma lines_append_cons {l s : List Char} (h : ∀ c ∈ l, c ≠ '\n' ∧ c ≠ '\r') :
    lines (l ++ '\n' :: s) = l :: lines s := by
  induction l with
  | nil => simp [lines]
  | cons c l ih =>
    obtain ⟨hlf, hcr⟩ := h c (by simp)
    have ih := ih fun d hd => h d (List.mem_cons_of_mem _ hd)
    rw [List.cons_append, lines, ih]
    · exact fun _ hc _ => absurd hc hcr
    · exact fun hc => absurd hc hlf

/-- A file with one number on each line. -/
def decimals (ns : List ℕ) : List Char := ns.flatMap fun n => Nat.toDigits 10 n ++ ['\n']

theorem filterMap_lines_decimals {bound : ℕ} {ns : List ℕ} (h : ∀ n ∈ ns, n < bound) :
    (lines (decimals ns)).filterMap (fun l => parseUnsigned bound (trim l)) = ns := by
  induction ns with
  | nil => rfl
  | cons n ns ih =>
    have hdigit : ∀ c ∈ Nat.toDigits 10 n, isWhitespace c = false ∧ c ≠ '+' ∧ c ≠ '\n' ∧ c ≠ '\r' :=
      fun c hc => of_isDigit (isDigit_of_mem hc)
    have hlines : lines (decimals (n :: ns)) = Nat.toDigits 10 n :: lines (decimals ns) := by
      rw [decimals, List.flatMap_cons, List.append_assoc]
      exact lines_append_cons fun c hc => (hdigit c hc).2.2
    rw [hlines, List.filterMap_cons_some (b := n),
      ih fun m hm => h m (List.mem_cons_of_mem _ hm)]
    rw [trim_of_not_whitespace fun c hc => (hdigit c hc).1, parseUnsigned_toDigits (h n (by simp))]

/-! ## Inserting lines -/

/-- The second list is the first with elements that satisfy `p` inserted, anywhere. -/
inductive Inserted {α : Type*} (p : α → Prop) : List α → List α → Prop
  | nil : Inserted p [] []
  | keep (a : α) {l l' : List α} : Inserted p l l' → Inserted p (a :: l) (a :: l')
  | insert {a : α} {l l' : List α} : p a → Inserted p l l' → Inserted p l (a :: l')

/-- Elements that are skipped may be inserted. -/
lemma Inserted.filterMap_eq {α β : Type*} {p : α → Prop} {f : α → Option β}
    (hskip : ∀ a, p a → f a = none) {l l' : List α} (h : Inserted p l l') :
    l'.filterMap f = l.filterMap f := by
  induction h with
  | nil => rfl
  | keep a _ ih => rw [List.filterMap_cons, List.filterMap_cons, ih]
  | insert ha _ ih => rw [List.filterMap_cons_none (hskip _ ha), ih]

end Str
