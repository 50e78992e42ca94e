import Peekbeam.FaultCounters
import Peekbeam.Utf8

/-!
# Process names and files that cannot be read

The name of a process is any bytes: the traced program sets it, and the kernel cuts it at 15.  The
kernel writes it into both files of the process, escaping at most ASCII bytes, and
`fs::read_to_string` fails on a file that is not UTF-8.  The loops over processes skip a file that
cannot be read because the process may have exited.

`only_the_gone_are_left_out_iff` — they skip those only exactly if the name of every listed process
is UTF-8: a process with another name is left out while it lives.
-/

namespace Peekbeam

open Accumulators Str

/-! ## Files of bytes -/

/-- The contents of files. -/
abbrev ByteFiles := Text → Option (List UInt8)

/-- `fs::read_to_string`, for every path. -/
def ByteFiles.readToString (fs : ByteFiles) : Files := fun path => (fs path).bind fromUtf8

/-- How a file shows the bytes of a name: bytes that are not ASCII as they are, and ASCII bytes as
ASCII. -/
structure Escaping (escape : UInt8 → List UInt8) : Prop where
  plain : ∀ b, ¬ b < 0x80 → escape b = [b]
  ascii : ∀ b, b < 0x80 → escape b ≠ [] ∧ ∀ d ∈ escape b, d < 0x80

lemma Escaping.isUtf8_append {escape : UInt8 → List UInt8} (h : Escaping escape)
    (front name : List UInt8) :
    IsUtf8 (front ++ name.flatMap escape) ↔ IsUtf8 (front ++ name) := by
  induction name generalizing front with
  | nil => rfl
  | cons b name ih =>
    rw [List.flatMap_cons]
    by_cases hb : b < 0x80
    · obtain ⟨hne, hascii⟩ := h.ascii b hb
      have hrest := ih []
      rw [List.nil_append, List.nil_append] at hrest
      rw [isUtf8_append_ascii hne hascii, hrest, isUtf8_append_cons hb]
    · rw [h.plain b hb, ← List.append_assoc, ih, List.append_assoc, List.singleton_append]

/-- **Escaping does not make a name UTF-8.** -/
lemma Escaping.isUtf8_iff {escape : UInt8 → List UInt8} (h : Escaping escape)
    (name : List UInt8) : IsUtf8 (name.flatMap escape) ↔ IsUtf8 name :=
  h.isUtf8_append [] name

/-! ## Live processes -/

/-- What the kernel writes about a live process: its name, the lines of the status file after the
name, and the fields of the stat file after it. -/
structure LiveProcess where
  comm : List UInt8
  status : Text
  stat : StatTail

namespace LiveProcess

/-- The status file of a process. -/
def statusBytes (escape : UInt8 → List UInt8) (p : LiveProcess) : List UInt8 :=
  toUtf8 ("Name:".toList ++ ['\t']) ++ p.comm.flatMap escape ++ toUtf8 ('\n' :: p.status)

/-- The stat file of a process. -/
def statBytes (escape : UInt8 → List UInt8) (pid : UInt32) (p : LiveProcess) : List UInt8 :=
  toUtf8 (Nat.toDigits 10 pid.toNat ++ [' '] ++ ['(']) ++ p.comm.flatMap escape ++
    toUtf8 (')' :: ' ' :: p.stat.text)

variable {escape : UInt8 → List UInt8}

/-- The status file is readable exactly if the name is UTF-8. -/
lemma isSome_statusBytes (h : Escaping escape) (p : LiveProcess) :
    (fromUtf8 (p.statusBytes escape)).isSome ↔ IsUtf8 p.comm := by
  rw [← isUtf8_iff_isSome, statusBytes, isUtf8_between (by decide) (by decide), h.isUtf8_iff]

/-- With a name that is UTF-8, the stat file is the record of a process with some name. -/
lemma fromUtf8_statBytes (h : Escaping escape) (pid : UInt32) {p : LiveProcess}
    (hcomm : IsUtf8 p.comm) :
    ∃ name, fromUtf8 (p.statBytes escape pid) = some (statText pid name p.stat) := by
  obtain ⟨name, hname⟩ := (h.isUtf8_iff p.comm).mpr hcomm
  refine ⟨name, ?_⟩
  rw [fromUtf8_eq_some_iff, statBytes, hname, ← toUtf8_append, ← toUtf8_append]
  congr 1
  simp [statText]

end LiveProcess

/-! ## Leaving out a live process -/

section Names
variable {escapeStatus escapeStat : UInt8 → List UInt8} {fs : ByteFiles} {target : MemoryTarget}
  {pids : List UInt32} {proc : UInt32 → Option LiveProcess}

/-- The files of the listed processes: those that are live have both, as the kernel writes them,
and those that have gone have none. -/
structure KernelFiles (escapeStatus escapeStat : UInt8 → List UInt8) (fs : ByteFiles)
    (pids : List UInt32) (proc : UInt32 → Option LiveProcess) : Prop where
  statusEscaping : Escaping escapeStatus
  statEscaping : Escaping escapeStat
  status : ∀ pid ∈ pids, fs (statusPath pid) = (proc pid).map (·.statusBytes escapeStatus)
  stat : ∀ pid ∈ pids, fs (statPath pid) = (proc pid).map (·.statBytes escapeStat pid)

/-- A listed process is left out of the totals only if it has gone: `num_processes` counts the live
ones, the fault counts are summed over them, and there is an error only without any. -/
structure OnlyGoneLeftOut (fs : ByteFiles) (target : MemoryTarget) (pids : List UInt32)
    (proc : UInt32 → Option LiveProcess) : Prop where
  counted : ∀ rss anon file shmem n,
    readProcesses fs.readToString pids = .ok (.Process rss anon file shmem n) →
      n = (pids.filterMap proc).length
  error : (∃ e, readProcesses fs.readToString pids = .error e) ↔ pids.filterMap proc = []
  summed : ∀ stats, readFaults fs.readToString target = .ok stats →
    stats.minFlt = ((pids.filterMap proc).map (·.stat.minFlt)).sum ∧
      stats.majFlt = ((pids.filterMap proc).map (·.stat.majFlt)).sum
  faultsError : (∃ e, readFaults fs.readToString target = .error e) ↔ pids.filterMap proc = []

/-- The status files that can be read are those of some live processes. -/
lemma statusTexts_readToString (h : KernelFiles escapeStatus escapeStat fs pids proc) :
    statusTexts fs.readToString pids =
      (pids.filterMap proc).filterMap fun p => fromUtf8 (p.statusBytes escapeStatus) := by
  rw [statusTexts, List.filterMap_filterMap]
  refine List.filterMap_congr fun pid hpid => ?_
  rw [ByteFiles.readToString, h.status pid hpid]
  cases proc pid <;> rfl

/-- If no name prevents it, all the stat files of live processes are read. -/
lemma faultsRead_readToString (h : KernelFiles escapeStatus escapeStat fs pids proc)
    (hnames : ∀ pid ∈ pids, ∀ p ∈ proc pid, IsUtf8 p.comm) :
    faultsRead fs.readToString pids = (pids.filterMap proc).map fun p =>
      { minFlt := p.stat.minFlt, majFlt := p.stat.majFlt } := by
  rw [faultsRead, List.map_filterMap]
  refine List.filterMap_congr fun pid hpid => ?_
  rw [ByteFiles.readToString, h.stat pid hpid]
  cases hp : proc pid with
  | none => rfl
  | some p =>
    obtain ⟨name, hname⟩ := LiveProcess.fromUtf8_statBytes h.statEscaping pid (hnames pid hpid p hp)
    simp [hname, statFaults_statText]

lemma forall_live_iff {P : LiveProcess → Prop} :
    (∀ p ∈ pids.filterMap proc, P p) ↔ ∀ pid ∈ pids, ∀ p ∈ proc pid, P p := by
  simp only [List.mem_filterMap, Option.mem_def]
  exact ⟨fun h pid hpid p hp => h p ⟨pid, hpid, hp⟩, fun h p ⟨pid, hpid, hp⟩ => h pid hpid p hp⟩

/-- All the status files of live processes are read exactly if no name prevents it. -/
lemma length_statusTexts_iff (h : KernelFiles escapeStatus escapeStat fs pids proc) :
    (statusTexts fs.readToString pids).length = (pids.filterMap proc).length ↔
      ∀ pid ∈ pids, ∀ p ∈ proc pid, IsUtf8 p.comm := by
  rw [statusTexts_readToString h, List.filterMap_length_eq_length, ← forall_live_iff]
  simp only [LiveProcess.isSome_statusBytes h.statusEscaping]

/-- **When only the gone are left out**: exactly when the name of every listed process that is
live is UTF-8. -/
theorem only_the_gone_are_left_out_iff
    (h : KernelFiles escapeStatus escapeStat fs pids proc)
    (hpids : targetPids fs.readToString target = .ok pids) :
    OnlyGoneLeftOut fs target pids proc ↔ ∀ pid ∈ pids, ∀ p ∈ proc pid, IsUtf8 p.comm := by
  rw [← length_statusTexts_iff h]
  constructor
  · intro honly
    by_cases htexts : statusTexts fs.readToString pids = []
    · have hnone : pids.filterMap proc = [] :=
        honly.error.mp (readProcesses_error_iff.mpr htexts)
      rw [htexts, hnone]
      rfl
    · exact honly.counted _ _ _ _ _ (by rw [readProcesses_eq, reportOf, if_neg htexts])
  · intro hlen
    have hfaults := faultsRead_readToString h ((length_statusTexts_iff h).mp hlen)
    have hsum : readFaults fs.readToString target = sumFaults fs.readToString pids := by
      rw [readFaults, hpids]
    have hlenFaults : (faultsRead fs.readToString pids).length = (pids.filterMap proc).length := by
      rw [hfaults, List.length_map]
    refine ⟨?_, ?_, ?_, ?_⟩
    · intro rss anon file shmem n hread
      rw [(of_readProcesses_ok hread).2.2.2.2, hlen]
    · rw [readProcesses_error_iff, eq_nil_iff_of_length_eq hlen]
    · intro stats hread
      obtain ⟨hmin, hmaj⟩ := of_sumFaults_ok (hsum ▸ hread)
      rw [hmin, hmaj, hfaults]
      simp [Function.comp_def]
    · rw [hsum, sumFaults_error_iff, eq_nil_iff_of_length_eq hlenFaults]

end Names

/-- The escaping of the status file: line feeds and backslashes are written `\n` and `\\`. -/
def escapeSpecial (b : UInt8) : List UInt8 :=
  if b = 10 then [92, 110] else if b = 92 then [92, 92] else [b]

lemma escaping_escapeSpecial : Escaping escapeSpecial where
  plain b hb := by
    have hlf : b ≠ 10 := by rintro rfl; exact hb (by decide)
    have hbackslash : b ≠ 92 := by rintro rfl; exact hb (by decide)
    simp [escapeSpecial, hlf, hbackslash]
  ascii b hb := by
    unfold escapeSpecial
    split_ifs
    · simp
    · simp
    · simpa using hb

lemma escaping_singleton : Escaping fun b => [b] where
  plain _ _ := rfl
  ascii _ hb := by simpa using hb

/-- Process 7, under a name of its choice. -/
def named (comm : List UInt8) : LiveProcess where
  comm
  status := "State:\tS (sleeping)\nVmRSS:\t8 kB\n".toList
  stat := tailOf7

def filesOfNamed (comm : List UInt8) : ByteFiles := fun path =>
  if path = statusPath 7 then some ((named comm).statusBytes escapeSpecial)
  else if path = statPath 7 then some ((named comm).statBytes (fun b => [b]) 7)
  else none

lemma kernelFiles_named (comm : List UInt8) :
    KernelFiles escapeSpecial (fun b => [b]) (filesOfNamed comm) [7] fun _ => some (named comm) where
  statusEscaping := escaping_escapeSpecial
  statEscaping := escaping_singleton
  status pid hpid := by
    obtain rfl := List.mem_singleton.mp hpid
    exact if_pos rfl
  stat pid hpid := by
    obtain rfl := List.mem_singleton.mp hpid
    have hne : statPath 7 ≠ statusPath 7 := by decide +kernel
    rw [filesOfNamed, if_neg hne, if_pos rfl]
    rfl

/-- A process named `é` is counted. -/
theorem only_the_gone_are_left_out_iff_named :
    OnlyGoneLeftOut (filesOfNamed (toUtf8 ['é'])) (.Pid 7) [7] fun _ => some (named (toUtf8 ['é'])) := by
  refine (only_the_gone_are_left_out_iff (kernelFiles_named _) rfl).mpr ?_
  rintro pid - p ⟨⟩
  exact isUtf8_toUtf8 ['é']

/-- A process whose name ends in the first byte of `é` is live, and reported to have exited. -/
theorem cut_name_left_out :
    readProcesses (filesOfNamed [0xC3]).readToString [7] =
        .error "no live processes found (target may have exited)".toList ∧
      KernelFiles escapeSpecial (fun b => [b]) (filesOfNamed [0xC3]) [7]
        (fun _ => some (named [0xC3])) ∧
      ¬ OnlyGoneLeftOut (filesOfNamed [0xC3]) (.Pid 7) [7] fun _ => some (named [0xC3]) := by
  have hfiles := kernelFiles_named [0xC3]
  have hcut : fromUtf8 ((named [0xC3]).statusBytes escapeSpecial) = none := by
    have hname : ¬ IsUtf8 (named [0xC3]).comm := by
      show ¬ IsUtf8 [0xC3]
      decide +kernel
    rw [← LiveProcess.isSome_statusBytes escaping_escapeSpecial (named [0xC3])] at hname
    simpa using hname
  have hread : readProcesses (filesOfNamed [0xC3]).readToString [7] =
      .error "no live processes found (target may have exited)".toList := by
    rw [readProcesses_eq, statusTexts_readToString hfiles]
    simp [reportOf, hcut]
  refine ⟨hread, hfiles, fun honly => ?_⟩
  have hnone := honly.error.mp ⟨_, hread⟩
  simp at hnone

end Peekbeam
