import Mathlib.Algebra.BigOperators.Ring.List
import Peekbeam.MemStats

/-!
# The lines the memory parsers read

The parsers of `/proc/<pid>/status` and of `memory.stat` read a text line by line, and a line as
words: the first is a key, the second a number.  Each has four keys, and what it reports is a
function of the lines that name one of them and have a number.

* `valuesOf` gives the numbers of a key, and the results of the two parsers are a sum of them
  (`toNat_kilobytes`) and the last of them (`lastValue`).
* Inserting lines that name no key changes nothing, nor does permuting lines, if in `memory.stat`
  no key occurs twice.

`memory_parsers_read_named_lines` collects this.
-/

namespace Peekbeam

open Accumulators Str

/-! ## Named lines -/

def statusKeys : List Text := ProcessTotals.figures.map Prod.fst

def cgroupStatKeys : List Text := CgroupStat.figures.map Prod.fst

lemma forall_mem_statusKeys {P : Text → Prop} :
    (∀ key ∈ statusKeys, P key) ↔ P "VmRSS:".toList ∧ P "RssAnon:".toList ∧
      P "RssFile:".toList ∧ P "RssShmem:".toList :=
  List.forall_mem_map.trans ProcessTotals.forall_mem_figures

lemma forall_mem_cgroupStatKeys {P : Text → Prop} :
    (∀ key ∈ cgroupStatKeys, P key) ↔ P "anon".toList ∧ P "file".toList ∧
      P "active_anon".toList ∧ P "inactive_anon".toList :=
  List.forall_mem_map.trans CgroupStat.forall_mem_figures

/-- A line that names none of the keys: its first word is another, it has no second word, or its
second word is not a number. -/
def Unnamed (keys : List Text) (line : Text) : Prop :=
  ∀ kv, keyValue line = some kv → kv.1 ∉ keys

instance (keys : List Text) (line : Text) : Decidable (Unnamed keys line) :=
  inferInstanceAs (Decidable (∀ kv ∈ keyValue line, kv.1 ∉ keys))

lemma valueOf_of_unnamed {keys : List Text} {key line : Text} (hkey : key ∈ keys)
    (h : Unnamed keys line) : valueOf key line = none := by
  unfold valueOf
  cases hkv : keyValue line with
  | none => rfl
  | some kv =>
    have hne : kv.1 ≠ key := fun heq => h kv hkv (heq ▸ hkey)
    exact if_neg hne

/-- The same text with lines inserted that name none of the keys. -/
def LinesInserted (keys : List Text) (text text' : Text) : Prop :=
  Inserted (Unnamed keys) (lines text) (lines text')

/-- The same text with its lines in another order. -/
def LinesPermuted (text text' : Text) : Prop := (lines text).Perm (lines text')

/-- The keys of the lines that have a number. -/
def keysOf (text : Text) : List Text := ((lines text).filterMap keyValue).map Prod.fst

section Values
variable {keys : List Text} {key text text' : Text}

lemma LinesInserted.valuesOf_eq (h : LinesInserted keys text text') (hkey : key ∈ keys) :
    valuesOf key text' = valuesOf key text :=
  Inserted.filterMap_eq (fun _ hline => valueOf_of_unnamed hkey hline) h

lemma LinesPermuted.valuesOf_perm (h : LinesPermuted text text') :
    (valuesOf key text).Perm (valuesOf key text') :=
  h.filterMap _

/-- The values of a key are those beside it. -/
lemma length_valuesOf (key text : Text) :
    (valuesOf key text).length = (keysOf text).count key := by
  unfold valuesOf keysOf
  induction lines text with
  | nil => rfl
  | cons line ls ih =>
    cases hkv : keyValue line with
    | none =>
      have hval : valueOf key line = none := by simp [valueOf, hkv]
      rw [List.filterMap_cons_none hval, List.filterMap_cons_none hkv, ih]
    | some kv =>
      rw [List.filterMap_cons_some hkv, List.map_cons, List.count_cons, ← ih]
      by_cases hkey : kv.1 = key
      · have hval : valueOf key line = some kv.2 := by simp [valueOf, hkv, hkey]
        rw [List.filterMap_cons_some hval, List.length_cons, if_pos (by simpa using hkey)]
      · have hval : valueOf key line = none := by simp [valueOf, hkv, hkey]
        rw [List.filterMap_cons_none hval, if_neg (by simpa using hkey), add_zero]

/-- A key that occurs once has one value, and permuting lines leaves it in place. -/
lemma LinesPermuted.valuesOf_eq (h : LinesPermuted text text') (hkeys : (keysOf text).Nodup)
    (key : Text) : valuesOf key text' = valuesOf key text := by
  have hperm : (valuesOf key text).Perm (valuesOf key text') := h.valuesOf_perm
  have hlen : (valuesOf key text).length ≤ 1 := by
    rw [length_valuesOf]
    exact List.nodup_iff_count_le_one.mp hkeys key
  cases hvals : valuesOf key text with
  | nil =>
    rw [hvals] at hperm
    exact hperm.symm.eq_nil
  | cons val vals =>
    obtain rfl : vals = [] := by simpa [hvals] using hlen
    rw [hvals] at hperm
    exact (List.singleton_perm.mp hperm).symm

end Values

/-! ## The totals -/

/-- The sum of the numbers of a key in some status files. -/
def sumOf (key : Text) (texts : List Text) : ℕ :=
  ((texts.flatMap (valuesOf key)).map UInt64.toNat).sum

lemma toNat_kilobytes {key : Text} {texts : List Text} (h : 1024 * sumOf key texts < 2 ^ 64) :
    (kilobytes key texts).toNat = 1024 * sumOf key texts := by
  have hsum : kilobytes key texts = (texts.flatMap (valuesOf key)).sum * 1024 := by
    rw [kilobytes, List.sum_map_mul_right, List.map_id']
  rw [hsum, UInt64.toNat_mul, toNat_sum, ← sumOf]
  have hconst : (1024 : UInt64).toNat = 1024 := rfl
  rw [hconst]
  omega

lemma rel_imp {α : Type} {r r' : α → α → Prop} (hr : ∀ a b, r a b → r' a b) {o o' : Option α}
    (h : Option.Rel r o o') : Option.Rel r' o o' := by
  cases h with
  | none => exact .none
  | some hab => exact .some (hr _ _ hab)

/-- The status files of `pids` under two file systems agree in what is computed from each. -/
lemma statusTexts_map_eq {β : Type} {fs fs' : Files} {pids : List UInt32}
    {r : Text → Text → Prop} {f : Text → β} (hf : ∀ text text', r text text' → f text' = f text)
    (h : ∀ pid ∈ pids, Option.Rel r (fs (statusPath pid)) (fs' (statusPath pid))) :
    (statusTexts fs' pids).map f = (statusTexts fs pids).map f := by
  rw [statusTexts, statusTexts, List.map_filterMap, List.map_filterMap]
  refine List.filterMap_congr fun pid hpid => ?_
  have hrel := h pid hpid
  generalize fs (statusPath pid) = read, fs' (statusPath pid) = read' at hrel ⊢
  cases hrel with
  | none => rfl
  | some htext => exact congrArg some (hf _ _ htext)

/-- What `read_processes` reports is determined by the values of its keys. -/
lemma readProcesses_congr {fs fs' : Files} {pids : List UInt32}
    (h : ∀ pid ∈ pids, Option.Rel
      (fun text text' => ∀ key ∈ statusKeys, (valuesOf key text).Perm (valuesOf key text'))
      (fs (statusPath pid)) (fs' (statusPath pid))) :
    readProcesses fs' pids = readProcesses fs pids := by
  have hlength : (statusTexts fs' pids).length = (statusTexts fs pids).length := by
    have := statusTexts_map_eq (f := fun _ => ()) (fun _ _ _ => rfl) h
    simpa using congrArg List.length this
  have hkey : ∀ key ∈ statusKeys,
      kilobytes key (statusTexts fs' pids) = kilobytes key (statusTexts fs pids) := by
    intro key hkey
    have hsums := statusTexts_map_eq (f := fun text => ((valuesOf key text).map (· * 1024)).sum)
      (fun _ _ htext => ((htext key hkey).map _).symm.sum_eq) h
    have hflat : ∀ texts : List Text, kilobytes key texts =
        (texts.map fun text => ((valuesOf key text).map (· * 1024)).sum).sum := fun texts => by
      rw [kilobytes, List.map_flatMap, List.flatMap, List.sum_flatten, List.map_map]
      rfl
    rw [hflat, hflat, hsums]
  obtain ⟨hrss, hanon, hfile, hshmem⟩ := forall_mem_statusKeys.mp hkey
  rw [readProcesses_eq, readProcesses_eq, reportOf, reportOf, hrss, hanon, hfile, hshmem, hlength]
  simp only [eq_nil_iff_of_length_eq hlength]

/-- What `read_cgroup` reports is determined by the values of its keys. -/
lemma readCgroup_congr {fs fs' : Files} {cgroupPath : Text}
    (hcurrent : fs' (CGROUP_ROOT ++ cgroupPath ++ "/memory.current".toList) =
      fs (CGROUP_ROOT ++ cgroupPath ++ "/memory.current".toList))
    (hstat : Option.Rel
      (fun text text' => ∀ key ∈ cgroupStatKeys, valuesOf key text' = valuesOf key text)
      (fs (CGROUP_ROOT ++ cgroupPath ++ "/memory.stat".toList))
      (fs' (CGROUP_ROOT ++ cgroupPath ++ "/memory.stat".toList))) :
    readCgroup fs' cgroupPath = readCgroup fs cgroupPath := by
  cases hc : fs (CGROUP_ROOT ++ cgroupPath ++ "/memory.current".toList) with
  | none =>
    rw [hc] at hcurrent
    simp only [readCgroup, hc, hcurrent]
  | some current =>
    rw [hc] at hcurrent
    cases hp : parseU64 (trim current) with
    | none => simp only [readCgroup, hc, hcurrent, hp]
    | some currentBytes =>
      generalize hs : fs (CGROUP_ROOT ++ cgroupPath ++ "/memory.stat".toList) = read,
        hs' : fs' (CGROUP_ROOT ++ cgroupPath ++ "/memory.stat".toList) = read' at hstat
      cases hstat with
      | none => simp only [readCgroup, hc, hcurrent, hp, hs, hs']
      | @some stat stat' hvalues =>
        have hlast : ∀ key ∈ cgroupStatKeys, lastValue key stat' = lastValue key stat :=
          fun key hkey => by rw [lastValue, hvalues key hkey, ← lastValue]
        obtain ⟨hanon, hfile, hactive, hinactive⟩ := forall_mem_cgroupStatKeys.mp hlast
        rw [readCgroup_eq hcurrent hp hs', readCgroup_eq hc hp hs, hanon, hfile, hactive,
          hinactive]

/-! ## Only the named lines -/

/-- **The memory parsers read the lines they name, and no others.**

* `read_processes` fails if there is no status file to read.  Otherwise it reports their number,
  and four totals: 1024 times the sums of the numbers on the lines of their keys, where that is
  below `2 ^ 64`.
* `read_cgroup` reports for each of its keys the number on the last line of the key, or 0.
* Inserting unnamed lines changes neither.
* Permuting lines changes neither, if the keys in `memory.stat` are distinct. -/
theorem memory_parsers_read_named_lines :
    (∀ fs pids,
      (statusTexts fs pids = [] → readProcesses fs pids =
        .error "no live processes found (target may have exited)".toList) ∧
      (statusTexts fs pids ≠ [] → ∃ rss anon file shmem,
        readProcesses fs pids = .ok (.Process rss anon file shmem (statusTexts fs pids).length) ∧
        ∀ p ∈ [("VmRSS:".toList, rss), ("RssAnon:".toList, anon), ("RssFile:".toList, file),
          ("RssShmem:".toList, shmem)],
          1024 * sumOf p.1 (statusTexts fs pids) < 2 ^ 64 →
            p.2.toNat = 1024 * sumOf p.1 (statusTexts fs pids))) ∧
    (∀ fs cgroupPath current currentBytes stat,
      fs (CGROUP_ROOT ++ cgroupPath ++ "/memory.current".toList) = some current →
      parseU64 (trim current) = some currentBytes →
      fs (CGROUP_ROOT ++ cgroupPath ++ "/memory.stat".toList) = some stat →
      readCgroup fs cgroupPath =
        .ok (.Cgroup currentBytes (lastValue "anon".toList stat) (lastValue "file".toList stat)
          (lastValue "active_anon".toList stat) (lastValue "inactive_anon".toList stat))) ∧
    (∀ fs fs' pids, (∀ pid ∈ pids, Option.Rel
        (fun text text' => LinesInserted statusKeys text text' ∨ LinesPermuted text text')
        (fs (statusPath pid)) (fs' (statusPath pid))) →
      readProcesses fs' pids = readProcesses fs pids) ∧
    ∀ fs fs' cgroupPath,
      fs' (CGROUP_ROOT ++ cgroupPath ++ "/memory.current".toList) =
        fs (CGROUP_ROOT ++ cgroupPath ++ "/memory.current".toList) →
      Option.Rel (fun text text' => LinesInserted cgroupStatKeys text text' ∨
          LinesPermuted text text' ∧ (keysOf text).Nodup)
        (fs (CGROUP_ROOT ++ cgroupPath ++ "/memory.stat".toList))
        (fs' (CGROUP_ROOT ++ cgroupPath ++ "/memory.stat".toList)) →
      readCgroup fs' cgroupPath = readCgroup fs cgroupPath := by
  refine ⟨fun fs pids => ⟨fun hnone => ?_, fun hsome => ?_⟩, fun _ _ _ _ _ => readCgroup_eq,
    fun fs fs' pids h => ?_, ?_⟩
  · rw [readProcesses_eq, reportOf, if_pos hnone]
  · refine ⟨_, _, _, _, by rw [readProcesses_eq, reportOf, if_neg hsome], ?_⟩
    simp only [List.forall_mem_cons, List.not_mem_nil, false_imp_iff, implies_true, and_true]
    exact ⟨toNat_kilobytes, toNat_kilobytes, toNat_kilobytes, toNat_kilobytes⟩
  · refine readProcesses_congr fun pid hpid => rel_imp ?_ (h pid hpid)
    rintro text text' (hinserted | hpermuted) key hkey
    · rw [hinserted.valuesOf_eq hkey]
    · exact hpermuted.valuesOf_perm
  · intro fs fs' cgroupPath hcurrent hstat
    refine readCgroup_congr hcurrent (rel_imp ?_ hstat)
    rintro text text' (hinserted | ⟨hpermuted, hkeys⟩) key hkey
    · exact hinserted.valuesOf_eq hkey
    · exact hpermuted.valuesOf_eq hkeys key

/-- Processes 1 and 2 and the cgroup `/a`; process 3 has exited. -/
def filesWith (status₁ status₂ stat : Text) : Files := fun path =>
  if path = statusPath 1 then some status₁
  else if path = statusPath 2 then some status₂
  else if path = CGROUP_ROOT ++ "/a".toList ++ "/memory.current".toList then some "100\n".toList
  else if path = CGROUP_ROOT ++ "/a".toList ++ "/memory.stat".toList then some stat
  else none

/-- Files with odd lines: a key in second place, keys without a number, a key that is part of
another. -/
def oddFiles : Files :=
  filesWith "x VmRSS: 9\nVmRSS:\t 20 kB\r\nRssFile: 8".toList
    "VmRSS: 3\nVmRSS:\nRssAnon: x\nVmRSS: 2\nRssShmem: 4\n".toList
    "anon 5\nactive_anon 9\nanon\t7 x\nanon x\n".toList

/-- The same files, the first and the last with a line inserted, the second with its lines in
another order. -/
def shuffledFiles : Files :=
  filesWith "x VmRSS: 9\nVmRSS: -5\nVmRSS:\t 20 kB\r\nRssFile: 8".toList
    "RssShmem: 4\nVmRSS: 2\nRssAnon: x\nVmRSS: 3\nVmRSS:\n".toList
    "anon 5\nanon_thp 6\nactive_anon 9\nanon\t7 x\nanon x\n".toList

theorem memory_parsers_read_named_lines_oddFiles :
    readProcesses oddFiles [1, 3, 2] = .ok (.Process 25600 0 8192 4096 2) ∧
    readCgroup oddFiles "/a".toList = .ok (.Cgroup 100 7 0 9 0) ∧
    readProcesses shuffledFiles [1, 3, 2] = readProcesses oddFiles [1, 3, 2] ∧
    readCgroup shuffledFiles "/a".toList = readCgroup oddFiles "/a".toList := by
  obtain ⟨hprocesses, hcgroup, hsame, hsameCgroup⟩ := memory_parsers_read_named_lines
  refine ⟨?_, ?_, ?_, ?_⟩
  · obtain ⟨rss, anon, file, shmem, hread, htotals⟩ :=
      (hprocesses oddFiles [1, 3, 2]).2 (by decide +kernel)
    simp only [List.forall_mem_cons, List.not_mem_nil, false_imp_iff, implies_true, and_true]
      at htotals
    obtain ⟨hrss, hanon, hfile, hshmem⟩ := htotals
    have hrss : rss = 25600 :=
      UInt64.toNat.inj ((hrss (by decide +kernel)).trans (by decide +kernel))
    have hanon : anon = 0 :=
      UInt64.toNat.inj ((hanon (by decide +kernel)).trans (by decide +kernel))
    have hfile : file = 8192 :=
      UInt64.toNat.inj ((hfile (by decide +kernel)).trans (by decide +kernel))
    have hshmem : shmem = 4096 :=
      UInt64.toNat.inj ((hshmem (by decide +kernel)).trans (by decide +kernel))
    have hcount : (statusTexts oddFiles [1, 3, 2]).length = 2 := by decide +kernel
    rw [hread, hrss, hanon, hfile, hshmem, hcount]
  · rw [hcgroup oddFiles "/a".toList "100\n".toList 100 _ (by decide +kernel)
      (by decide +kernel) rfl]
    decide +kernel
  · refine hsame oddFiles shuffledFiles [1, 3, 2] ?_
    simp only [List.forall_mem_cons, List.not_mem_nil, false_imp_iff, implies_true, and_true]
    refine ⟨.some (.inl ?_), .none, .some (.inr ?_)⟩
    · exact .keep _ (.insert (by decide +kernel) (.keep _ (.keep _ .nil)))
    · unfold LinesPermuted
      decide +kernel
  · refine hsameCgroup oddFiles shuffledFiles "/a".toList (by decide +kernel) (.some (.inl ?_))
    exact .keep _ (.insert (by decide +kernel) (.keep _ (.keep _ (.keep _ .nil))))

-- the third line has no number, and the fourth names a longer key
example : valuesOf "anon".toList "anon 5\n anon\t7 x\nanon x\nactive_anon 9\n".toList = [5, 7] := by
  decide +kernel

end Peekbeam
