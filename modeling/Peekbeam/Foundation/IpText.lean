import Mathlib.Algebra.Ring.Nat
import Mathlib.Data.List.DropRight
import Mathlib.Tactic.IntervalCases
import Mathlib.Tactic.Lemma
import Peekbeam.Foundation.Text

/-!
# IP addresses as text

The textual forms of addresses as the standard library of Rust prints them.  An IPv4 address is
four decimal numbers with dots (`ipv4`).  An IPv6 address is eight hexadecimal numbers with colons,
of which the first longest run of at least two zeros is left out between two colons; an address
that stands for an IPv4 address shows that one (`ipv6`).

The form of IPv6 addresses is read back by splitting at the colons: an empty field marks the gap,
and the length of the address says how many zeros are missing (`readIpv6_ipv6`).
-/

namespace IpText

open Str

/-! ## Hexadecimal numbers -/

/-- The value of a digit, the letters being lower case. -/
def digitValue (c : Char) : ℕ := if c.isDigit then c.toNat - 48 else c.toNat - 87

def readHex (s : List Char) : ℕ := s.foldl (fun n c => 16 * n + digitValue c) 0

lemma digitValue_digitChar {d : ℕ} (h : d < 16) : digitValue d.digitChar = d := by
  interval_cases d <;> rfl

lemma readHex_toDigits (n : ℕ) : readHex (Nat.toDigits 16 n) = n := by
  induction n using Nat.strong_induction_on with
  | _ n ih =>
    rw [Nat.toDigits_eq_if (by decide)]
    split
    · rename_i h
      simp [readHex, digitValue_digitChar h]
    · have ih := ih (n / 16) (by omega)
      unfold readHex at ih ⊢
      rw [List.foldl_append, ih]
      simp only [List.foldl_cons, List.foldl_nil,
        digitValue_digitChar (Nat.mod_lt n (by decide : 0 < 16))]
      omega

/-- The digits are not separators. -/
lemma of_mem_toDigits {n : ℕ} {c : Char} (h : c ∈ Nat.toDigits 16 n) : c ≠ ':' ∧ c ≠ '.' := by
  induction n using Nat.strong_induction_on with
  | _ n ih =>
    have hdigit : ∀ d < 16, d.digitChar ≠ ':' ∧ d.digitChar ≠ '.' := by decide
    rw [Nat.toDigits_eq_if (by decide)] at h
    split at h
    · rename_i hlt
      rw [List.mem_singleton.mp h]
      exact hdigit n hlt
    · rcases List.mem_append.mp h with h | h
      · exact ih (n / 16) (by omega) h
      · rw [List.mem_singleton.mp h]
        exact hdigit _ (Nat.mod_lt n (by decide))

/-! ## IPv4 -/

/-- `Ipv4Addr`, printed. -/
def ipv4 (octets : List ℕ) : List Char := ['.'].intercalate (octets.map (Nat.toDigits 10))

def readIpv4 (text : List Char) : List ℕ :=
  (text.splitOn '.').map fun s => Nat.ofDigitChars 10 s 0

lemma readIpv4_ipv4 {octets : List ℕ} (h : octets ≠ []) : readIpv4 (ipv4 octets) = octets := by
  have hdot : ∀ s ∈ octets.map (Nat.toDigits 10), '.' ∉ s := by
    intro s hs
    obtain ⟨n, -, rfl⟩ := List.mem_map.mp hs
    exact fun hmem => absurd (isDigit_of_mem hmem) (by decide)
  rw [readIpv4, ipv4, List.splitOn_intercalate _ hdot (by simpa using h), List.map_map]
  simp [Function.comp_def, Nat.ofDigitChars_ten_toDigits]

lemma not_mem_ipv4 {octets : List ℕ} {c : Char} (hdot : c ≠ '.') (hdigit : c.isDigit = false) :
    c ∉ ipv4 octets := by
  intro h
  rcases mem_of_mem_intercalate h with rfl | ⟨s, hs, hc⟩
  · exact hdot rfl
  · obtain ⟨n, -, rfl⟩ := List.mem_map.mp hs
    simp [isDigit_of_mem hc] at hdigit

/-! ## The longest run of zeros -/

structure Span where
  start : ℕ := 0
  len : ℕ := 0

/-- The state of the search: the longest run so far, and the one that ends here. -/
structure Spans where
  longest : Span := {}
  current : Span := {}

def Spans.step (s : Spans) (segment : ℕ × ℕ) : Spans :=
  if segment.1 = 0 then
    let current : Span :=
      { start := if s.current.len = 0 then segment.2 else s.current.start
        len := s.current.len + 1 }
    { longest := if s.longest.len < current.len then current else s.longest, current }
  else { s with current := {} }

/-- The first of the longest runs of zeros. -/
def longestZeros (segments : List ℕ) : Span :=
  (segments.zipIdx.foldl Spans.step {}).longest

/-- The span is a run of zeros. -/
def Span.Zeros (span : Span) (segments : List ℕ) : Prop :=
  ∃ pre post, segments = pre ++ (List.replicate span.len 0 ++ post) ∧ pre.length = span.start

/-- The current run is one at the end. -/
structure Spans.Sound (s : Spans) (segments : List ℕ) : Prop where
  longest : s.longest.Zeros segments
  current : ∃ pre, segments = pre ++ List.replicate s.current.len 0 ∧
    (s.current.len ≠ 0 → pre.length = s.current.start)

lemma Span.Zeros.concat {span : Span} {segments : List ℕ} (h : span.Zeros segments) (n : ℕ) :
    span.Zeros (segments ++ [n]) := by
  obtain ⟨pre, post, rfl, hstart⟩ := h
  exact ⟨pre, post ++ [n], by simp, hstart⟩

lemma Spans.Sound.step {s : Spans} {segments : List ℕ} (h : s.Sound segments) (n : ℕ) :
    (s.step (n, segments.length)).Sound (segments ++ [n]) := by
  obtain ⟨hlongest, pre, hsegments, hstart⟩ := h
  by_cases hn : n = 0
  · subst hn
    have hrun : segments ++ [0] = pre ++ List.replicate (s.current.len + 1) 0 := by
      rw [hsegments, List.replicate_succ', List.append_assoc]
    have hpre : pre.length = if s.current.len = 0 then segments.length else s.current.start := by
      split
      · rename_i h0
        rw [hsegments, h0]
        simp
      · rename_i h0
        exact hstart h0
    have hcurrent : Span.Zeros
        { start := if s.current.len = 0 then segments.length else s.current.start
          len := s.current.len + 1 } (segments ++ [0]) :=
      ⟨pre, [], by simpa using hrun, hpre⟩
    refine ⟨?_, pre, hrun, fun _ => hpre⟩
    simp only [Spans.step, if_true]
    split
    · exact hcurrent
    · exact hlongest.concat 0
  · refine ⟨?_, segments ++ [n], ?_, ?_⟩
    · simpa [Spans.step, hn] using hlongest.concat n
    · simp [Spans.step, hn]
    · simp [Spans.step, hn]

lemma zeros_longestZeros (segments : List ℕ) : (longestZeros segments).Zeros segments := by
  have hsound : (segments.zipIdx.foldl Spans.step {}).Sound segments := by
    induction segments using List.reverseRecOn with
    | nil => exact ⟨⟨[], [], rfl, rfl⟩, [], rfl, fun _ => rfl⟩
    | append_singleton segments n ih =>
      rw [List.zipIdx_append, List.foldl_append]
      simpa using ih.step n
  exact hsound.longest

/-! ## IPv6 -/

/-- The octets of the IPv4 address that an address stands for, if it is of that kind. -/
def ipv4Mapped : List ℕ → Option (List ℕ)
  | [a, b, c, d, e, f, g, h] =>
    if [a, b, c, d, e, f] = [0, 0, 0, 0, 0, 0xffff] then
      some [g / 256, g % 256, h / 256, h % 256]
    else none
  | _ => none

/-- Hexadecimal numbers with colons between them. -/
def hextets (segments : List ℕ) : List Char := [':'].intercalate (segments.map (Nat.toDigits 16))

/-- `Ipv6Addr`, printed. -/
def ipv6 (segments : List ℕ) : List Char :=
  match ipv4Mapped segments with
  | some octets => "::ffff:".toList ++ ipv4 octets
  | none =>
    let zeros := longestZeros segments
    if 1 < zeros.len then
      hextets (segments.take zeros.start) ++ "::".toList ++
        hextets (segments.drop (zeros.start + zeros.len))
    else hextets segments

/-- The numbers of fields, an empty one of which stands for the zeros that are missing. -/
def readHextets (fields : List (List Char)) : List ℕ :=
  if [] ∈ fields then
    let pre := fields.takeWhile (· ≠ [])
    let post := fields.rtakeWhile (· ≠ [])
    pre.map readHex ++ (List.replicate (8 - pre.length - post.length) 0 ++ post.map readHex)
  else fields.map readHex

def readIpv6 (text : List Char) : List ℕ :=
  if '.' ∈ text then
    match (afterLast ':' text).map readIpv4 with
    | some [a, b, c, d] => [0, 0, 0, 0, 0, 0xffff, a * 256 + b, c * 256 + d]
    | _ => []
  else readHextets (text.splitOn ':')

lemma colon_not_mem {segments : List ℕ} : ∀ s ∈ segments.map (Nat.toDigits 16), ':' ∉ s := by
  intro s hs
  obtain ⟨n, -, rfl⟩ := List.mem_map.mp hs
  exact fun hmem => (of_mem_toDigits hmem).1 rfl

lemma ne_nil_of_mem {segments : List ℕ} : ∀ s ∈ segments.map (Nat.toDigits 16), s ≠ [] := by
  intro s hs
  obtain ⟨n, -, rfl⟩ := List.mem_map.mp hs
  exact Nat.toDigits_ne_nil

lemma dot_not_mem_hextets (segments : List ℕ) : '.' ∉ hextets segments := by
  intro h
  rcases mem_of_mem_intercalate h with h | ⟨s, hs, hc⟩
  · exact absurd h (by decide)
  · obtain ⟨n, -, rfl⟩ := List.mem_map.mp hs
    exact (of_mem_toDigits hc).2 rfl

/-- The fields of some numbers; of none, one empty field. -/
lemma splitOn_hextets (segments : List ℕ) :
    (hextets segments).splitOn ':' =
      if segments = [] then [[]] else segments.map (Nat.toDigits 16) := by
  split
  · rename_i h
    subst h
    rfl
  · rename_i h
    exact List.splitOn_intercalate _ colon_not_mem (by simpa using h)

lemma map_readHex_toDigits (segments : List ℕ) :
    (segments.map (Nat.toDigits 16)).map readHex = segments := by
  simp [Function.comp_def, readHex_toDigits]

lemma readHextets_hextets {segments : List ℕ} (h : segments ≠ []) :
    readHextets ((hextets segments).splitOn ':') = segments := by
  rw [splitOn_hextets, if_neg h, readHextets, if_neg fun hmem => ne_nil_of_mem [] hmem rfl,
    map_readHex_toDigits]

lemma takeWhile_fields (pre : List ℕ) (rest : List (List Char)) :
    (((hextets pre).splitOn ':') ++ [] :: rest).takeWhile (· ≠ []) =
      pre.map (Nat.toDigits 16) := by
  rw [splitOn_hextets]
  split
  · rename_i h
    simp [h]
  · rw [List.takeWhile_append_of_pos fun s hs => by simpa using ne_nil_of_mem s hs]
    simp

lemma rtakeWhile_fields (rest : List (List Char)) (post : List ℕ) :
    (rest ++ [] :: ((hextets post).splitOn ':')).rtakeWhile (· ≠ []) =
      post.map (Nat.toDigits 16) := by
  rw [splitOn_hextets]
  split
  · rename_i h
    have hlast : rest ++ [] :: [[]] = (rest ++ [[]]) ++ [([] : List Char)] := by simp
    rw [hlast, List.rtakeWhile_concat_neg]
    · simp [h]
    · simp
  · rw [List.rtakeWhile, List.reverse_append, List.reverse_cons, List.append_assoc,
      List.takeWhile_append_of_pos fun s hs => by
        simpa using ne_nil_of_mem s (List.mem_reverse.mp hs)]
    simp

/-- Around the gap, the fields before the first empty one and after the last are the numbers. -/
lemma readHextets_gap {pre post : List ℕ} {n : ℕ} (h : pre.length + n + post.length = 8) :
    readHextets ((hextets pre ++ "::".toList ++ hextets post).splitOn ':') =
      pre ++ (List.replicate n 0 ++ post) := by
  have hfields : (hextets pre ++ "::".toList ++ hextets post).splitOn ':' =
      (hextets pre).splitOn ':' ++ [] :: (hextets post).splitOn ':' := by
    have htext : hextets pre ++ "::".toList ++ hextets post =
        hextets pre ++ ':' :: ([] ++ ':' :: hextets post) := by simp
    rw [htext, List.splitOn_append_cons_self, List.splitOn_append_cons_self]
    rfl
  have hmissing : 8 - pre.length - post.length = n := by omega
  rw [hfields, readHextets, if_pos (by simp)]
  dsimp only
  rw [takeWhile_fields, rtakeWhile_fields, map_readHex_toDigits, map_readHex_toDigits,
    List.length_map, List.length_map, hmissing]

lemma readIpv6_mapped (a b c d : ℕ) :
    readIpv6 ("::ffff:".toList ++ ipv4 [a, b, c, d]) =
      [0, 0, 0, 0, 0, 0xffff, a * 256 + b, c * 256 + d] := by
  have hdot : '.' ∈ "::ffff:".toList ++ ipv4 [a, b, c, d] := by
    simp [ipv4, List.intercalate]
  have hcolon : "::ffff:".toList ++ ipv4 [a, b, c, d] =
      "::ffff".toList ++ ':' :: ipv4 [a, b, c, d] := rfl
  rw [readIpv6, if_pos hdot, hcolon, afterLast_append_cons _ (not_mem_ipv4 (by decide) (by decide)),
    Option.map_some, readIpv4_ipv4 (by simp)]

/-- **An address is read back from its text.** -/
theorem readIpv6_ipv6 {segments : List ℕ} (h : segments.length = 8) :
    readIpv6 (ipv6 segments) = segments := by
  unfold ipv6
  cases hmapped : ipv4Mapped segments with
  | some octets =>
    unfold ipv4Mapped at hmapped
    split at hmapped
    · rename_i a b c d e f g h
      split at hmapped
      · rename_i hprefix
        obtain rfl := Option.some.inj hmapped
        simp only [List.cons.injEq, and_true] at hprefix
        obtain ⟨rfl, rfl, rfl, rfl, rfl, rfl⟩ := hprefix
        dsimp only
        rw [readIpv6_mapped, Nat.div_add_mod', Nat.div_add_mod']
      · simp at hmapped
    · simp at hmapped
  | none =>
    have hzeros := zeros_longestZeros segments
    dsimp only
    generalize longestZeros segments = zeros at hzeros ⊢
    split
    · obtain ⟨pre, post, rfl, hstart⟩ := hzeros
      have htake : (pre ++ (List.replicate zeros.len 0 ++ post)).take zeros.start = pre := by
        simp [← hstart]
      have hdrop : (pre ++ (List.replicate zeros.len 0 ++ post)).drop
          (zeros.start + zeros.len) = post := by
        rw [← hstart, ← List.append_assoc]
        simp
      have hdot : '.' ∉ hextets pre ++ "::".toList ++ hextets post := by
        simp [dot_not_mem_hextets]
      rw [htake, hdrop, readIpv6, if_neg hdot, readHextets_gap]
      simpa [Nat.add_assoc] using h
    · have hne : segments ≠ [] := by
        rintro rfl
        simp at h
      rw [readIpv6, if_neg (dot_not_mem_hextets segments), readHextets_hextets hne]

/-- The two forms are told apart by a colon. -/
lemma colon_mem_ipv6 {segments : List ℕ} (h : segments.length = 8) : ':' ∈ ipv6 segments := by
  unfold ipv6
  split
  · simp
  · dsimp only
    split
    · simp
    · have htwo : ∃ a b rest, segments = a :: b :: rest := by
        match segments, h with
        | a :: b :: rest, _ => exact ⟨a, b, rest, rfl⟩
      obtain ⟨a, b, rest, rfl⟩ := htwo
      simp [hextets, List.intercalate]

end IpText
