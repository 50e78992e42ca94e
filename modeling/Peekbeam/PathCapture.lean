import Peekbeam.Drain.Files
import Peekbeam.FileTrace
import Peekbeam.Utf8

/-!
# Displayed paths

A pathname reaches the file table in three steps: it is captured from user memory at the enter of
an `openat`, put into the event at its exit, and decoded by `format_path`.  The capture takes at
most `FILE_PATH_MAX - 1` bytes, the terminating NUL being the last of the buffer, and reports the
length without the NUL; `format_path` marks a path as cut when the length reaches `FILE_PATH_MAX`.

The length never does.  `displayed_path` is what is stored instead, and `path_displayed_iff` the
consequence: a path is displayed as it should be exactly when it was captured whole.
-/

namespace Peekbeam

open History

attribute [local irreducible] TracePointContext.field

/-! ## Capturing and formatting -/

/-- What is captured of a path. -/
def captured (bytes : List UInt8) : List UInt8 := bytes.take (FILE_PATH_MAX - 1)

lemma length_captured_le (bytes : List UInt8) : (captured bytes).length ≤ 63 := by
  rw [captured, List.length_take]
  exact Nat.min_le_left _ _

/-- The pathname of an `openat`, captured from the string its argument points to. -/
lemma capturePath_ok {h : Helpers} {ctx : TracePointContext} {bytes : List UInt8}
    (hread : ctx.readError 24 = none)
    (hstring : h.userString (ctx.field UInt64 24) = .ok bytes) :
    capturePath h ctx = .ok
      { path := Vector.ofFn fun i => (captured bytes).getD i 0
        pathLen := UInt16.ofNat (captured bytes).length } := by
  rw [capturePath, TracePointContext.readAt_of_readError_none hread]
  simp only [bind, Except.bind, Helpers.probeReadUserStrBytes, hstring]
  rfl

/-- The buffer starts with what was captured. -/
lemma take_buffer (bytes : List UInt8) :
    (Vector.ofFn fun i : Fin FILE_PATH_MAX => (captured bytes).getD i 0).toList.take
      (captured bytes).length = captured bytes := by
  have hle := length_captured_le bytes
  apply List.ext_getElem
  · simp [FILE_PATH_MAX]
    omega
  · intro i _ hi
    simp [hi]

/-- **No ellipsis.**  Whatever was captured is displayed as if it were the whole path. -/
lemma formatPath_captured (bytes : List UInt8) :
    formatPath (Vector.ofFn fun i : Fin FILE_PATH_MAX => (captured bytes).getD i 0).toList
      (UInt16.ofNat (captured bytes).length) = fromUtf8Lossy (captured bytes) := by
  have hle := length_captured_le bytes
  have hlen : (UInt16.ofNat (captured bytes).length).toNat = (captured bytes).length :=
    UInt16.toNat_ofNat_of_lt' (by simp [UInt16.size]; omega)
  have hmin : min (captured bytes).length
      (Vector.ofFn fun i : Fin FILE_PATH_MAX => (captured bytes).getD i 0).toList.length =
        (captured bytes).length := by
    simp [FILE_PATH_MAX]
    omega
  rw [formatPath, hlen, hmin, take_buffer, if_neg (by simp [FILE_PATH_MAX]; omega)]

/-! ## A successful open -/

variable {τ : Type}

/-- In a run `pre ++ e :: mid ++ [f]`, the firing `e` enters and `f` exits a successful `openat` or
`openat2` with the path `path`.  Nothing fails on the way: the path is captured and stashed, no
other open of the process comes between, and the event reaches the ring. -/
structure OpenCall (target : Target) (pre mid : List (SyscallFiring τ)) (e f : SyscallFiring τ)
    (path : Text) : Prop where
  delivered : ∀ g ∈ pre ++ e :: mid ++ [f], g.Delivered target
  enters : e.kind = .Enter
  exits : f.kind = .Exit
  opensPath : usesPath e.nr = true
  sameCall : f.key = e.key
  pointer : e.ctx.readError 24 = none
  argument : e.helpers.userString (e.ctx.field UInt64 24) = .ok (toUtf8 path)
  inserts : e.helpers.insertError = none
  room : (afterSyscalls target pre).pendingOpenPath.HasRoom e.pid
  undisturbed : ∀ g ∈ mid, g.pathSlot ≠ some e.pid
  returns : f.ctx.readError 16 = none
  succeeds : 0 ≤ f.ret
  output : f.helpers.fileEventsError = none

section OpenCall
variable {target : Target} {pre mid : List (SyscallFiring τ)} {e f : SyscallFiring τ} {path : Text}

/-- The stash of a process changes with its own opens only. -/
lemma pathContents_append {pid : UInt32} (hmid : ∀ g ∈ mid, g.Delivered target)
    (hslot : ∀ g ∈ mid, g.pathSlot ≠ some pid) :
    pathContents target (pre ++ mid) pid = pathContents target pre pid := by
  induction mid using List.reverseRecOn with
  | nil => rw [List.append_nil]
  | append_singleton mid g ih =>
    have hg : ¬ (usesPath g.nr = true ∧ pid = g.pid) := fun h =>
      hslot g (by simp) (SyscallFiring.pathSlot_eq_some.mpr ⟨h.1, h.2.symm⟩)
    rw [← List.append_assoc, pathContents_concat (hmid g (by simp)), if_neg hg]
    exact ih (fun g hg => hmid g (List.mem_append_left _ hg))
      fun g hg => hslot g (List.mem_append_left _ hg)

/-- What the call stashed is there when it returns. -/
lemma OpenCall.stashed (h : OpenCall target pre mid e f path) :
    pathContents target (pre ++ e :: mid) f.pid = some
      { path := Vector.ofFn fun i => (captured (toUtf8 path)).getD i 0
        pathLen := UInt16.ofNat (captured (toUtf8 path)).length } := by
  have hpid : f.pid = e.pid := congrArg Prod.fst h.sameCall
  have hdelivered : ∀ g ∈ pre ++ e :: mid, g.Delivered target := fun g hg =>
    h.delivered g (List.mem_append_left _ hg)
  have he : pathContents target (pre ++ [e]) e.pid =
      stashedAt (afterSyscalls target pre).pendingOpenPath e.helpers e.pid
        (capturePath e.helpers e.ctx) := by
    simp only [pathContents_concat (hdelivered e (by simp)), h.opensPath, h.enters, and_self,
      if_true]
  rw [hpid, List.append_cons, pathContents_append
      (fun g hg => hdelivered g (by simp [hg])) h.undisturbed, he,
    capturePath_ok h.pointer h.argument, stashedAt, if_pos ⟨h.inserts, h.room⟩]

/-- The event of the call. -/
lemma OpenCall.emitted_eq (h : OpenCall target pre mid e f path) :
    emitted target (pre ++ e :: mid) f = some (openEvent f.helpers f.pid f.ret
      { path := Vector.ofFn fun i => (captured (toUtf8 path)).getD i 0
        pathLen := UInt16.ofNat (captured (toUtf8 path)).length }) := by
  have hnr : f.nr = e.nr := SyscallFiring.nr_eq_of_key h.sameCall
  have hexit : f.opens = false := by simp [SyscallFiring.opens, h.exits]
  have hopen : fileKind f.nr = some .Open := by simpa [hnr, usesPath] using h.opensPath
  have hret : f.ctx.readAt Int64 16 = .ok f.ret :=
    TracePointContext.readAt_of_readError_none h.returns
  rw [emitted, if_neg (by simp [hexit, h.output]), hret]
  simp only [Except.toOption, Option.bind_some, callEvent, hopen, h.stashed, Option.map_some,
    if_neg (Int64.not_lt.mpr h.succeeds)]

/-- **The path that is stored.**  It is what was captured, decoded, whether or not that is the
whole path. -/
lemma displayed_path (h : OpenCall target pre mid e f path) :
    ∃ stats, (drainFileEvents (afterSyscalls target (pre ++ e :: mid ++ [f])).fileEvents ∅).lookup
        (f.pid, f.ret.toInt32) = some stats ∧
      stats.path = fromUtf8Lossy (captured (toUtf8 path)) := by
  have hf : f.Delivered target := h.delivered f (by simp)
  rw [fileEvents_concat hf, h.emitted_eq, drainFileEvents, drain_append, Option.toList_some,
    drain_map_of]
  exact ⟨_, AList.lookup_insert _, formatPath_captured (toUtf8 path)⟩

/-- A path is displayed as it should be: as it is if it was captured whole, and else as what was
captured of it, with an ellipsis to say so. -/
def DisplayedFaithfully (path shown : Text) : Prop :=
  if captured (toUtf8 path) = toUtf8 path then shown = path
  else shown = fromUtf8Lossy (captured (toUtf8 path)) ++ ['…']

/-- **When a displayed path can be trusted**: exactly when the path has at most 63 bytes. -/
theorem path_displayed_iff (h : OpenCall target pre mid e f path) :
    ∃ stats, (drainFileEvents (afterSyscalls target (pre ++ e :: mid ++ [f])).fileEvents ∅).lookup
        (f.pid, f.ret.toInt32) = some stats ∧
      (DisplayedFaithfully path stats.path ↔ (toUtf8 path).length ≤ 63) := by
  obtain ⟨stats, hlookup, hpath⟩ := displayed_path h
  have hwhole : captured (toUtf8 path) = toUtf8 path ↔ (toUtf8 path).length ≤ 63 :=
    List.take_eq_self_iff _
  refine ⟨stats, hlookup, ?_⟩
  rw [DisplayedFaithfully, hpath, ← hwhole]
  split
  · rename_i heq
    simp [heq, fromUtf8Lossy_toUtf8]
  · rename_i hcut
    simp [hcut]

end OpenCall

/-- Process 1 enters `openat` (56) with a path. -/
def entering (path : Text) : SyscallFiring Unit :=
  { SyscallFiring.plain () 1 .Enter 56 0 10 with
    helpers := { Helpers.plain 10 with userString := fun _ => .ok (toUtf8 path) } }

/-- The call returns descriptor 3. -/
def returning : SyscallFiring Unit := .plain () 1 .Exit 56 3 20

lemma returning_key : (returning.pid, returning.ret.toInt32) = (1, 3) := by decide +kernel

lemma openCall_entering (path : Text) :
    OpenCall (.Pid 1) [] [] (entering path) returning path where
  delivered := by
    have he : (entering path).Delivered (.Pid 1) := ⟨matchesTarget_load_pid _ 1, rfl, rfl⟩
    have hf : returning.Delivered (.Pid 1) := SyscallFiring.plain_delivered _ _ _ _ _ _
    simp [he, hf]
  enters := rfl
  exits := rfl
  opensPath := by
    show usesPath (SyscallFiring.plain () 1 .Enter 56 0 10).nr = true
    decide +kernel
  sameCall := by
    show returning.key = (SyscallFiring.plain () 1 .Enter 56 0 10).key
    decide +kernel
  pointer := rfl
  argument := rfl
  inserts := rfl
  room := Or.inr (by decide +kernel)
  undisturbed := by simp
  returns := rfl
  succeeds := by decide +kernel
  output := rfl

/-- A short path is displayed as it is. -/
theorem path_displayed_iff_short :
    ∃ stats, (drainFileEvents
        (afterSyscalls (.Pid 1) [entering ['/', 'é'], returning]).fileEvents ∅).lookup (1, 3) =
        some stats ∧ stats.path = ['/', 'é'] := by
  obtain ⟨stats, hlookup, hiff⟩ := path_displayed_iff (openCall_entering ['/', 'é'])
  have hshort : captured (toUtf8 ['/', 'é']) = toUtf8 ['/', 'é'] := by decide +kernel
  have hshown := hiff.mpr (by decide +kernel)
  rw [returning_key] at hlookup
  rw [DisplayedFaithfully, if_pos hshort] at hshown
  exact ⟨stats, hlookup, hshown⟩

/-- A path of 64 bytes loses its last one, and nothing shows it. -/
theorem long_path_shown_whole :
    OpenCall (.Pid 1) [] [] (entering (List.replicate 64 'a')) returning (List.replicate 64 'a') ∧
      ∃ stats, (drainFileEvents (afterSyscalls (.Pid 1)
          [entering (List.replicate 64 'a'), returning]).fileEvents ∅).lookup (1, 3) =
          some stats ∧
        stats.path = List.replicate 63 'a' ∧
        ¬ DisplayedFaithfully (List.replicate 64 'a') stats.path := by
  have hcall := openCall_entering (List.replicate 64 'a')
  obtain ⟨stats, hlookup, hpath⟩ := displayed_path hcall
  have hcut : captured (toUtf8 (List.replicate 64 'a')) = toUtf8 (List.replicate 63 'a') := by
    decide +kernel
  have hlost : toUtf8 (List.replicate 63 'a') ≠ toUtf8 (List.replicate 64 'a') := by
    decide +kernel
  rw [returning_key] at hlookup
  rw [hcut, fromUtf8Lossy_toUtf8] at hpath
  refine ⟨hcall, stats, hlookup, hpath, ?_⟩
  rw [DisplayedFaithfully, hcut, if_neg hlost, fromUtf8Lossy_toUtf8, hpath]
  simp

end Peekbeam
