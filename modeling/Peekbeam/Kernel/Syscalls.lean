import Peekbeam.Kernel.Context

/-!
# The syscall programs

`sys_enter` and `sys_exit` share one body, `tryEmit`: report the firing on `EVENTS`, then do
the file bookkeeping of FR4 (`handleFileSyscall`).  A handler is a function from the shared
state to the shared state and its `Result`; an early return (`?`) keeps the effects made so
far.

File bookkeeping is a stash at `sys_enter` — the pathname of an `openat`, the descriptor of a
`read`, `write`, `pread64`, `pwrite64` or `close` — that `sys_exit` consumes.  The rest of the
development uses it through the lemmas at the end of the file: the frame (`fileSyscall_frame`),
the two stashes (`get_pendingOpenPath_fileSyscall`, `get_pendingFd_fileSyscall`) and the records
(`fileEvents_fileSyscall`).
-/

namespace Peekbeam

/-! ## Constants -/

def SYSCALL_NR_OFFSET : ℕ := 8

def SYS_OPENAT : Int64 := 56
def SYS_CLOSE : Int64 := 57
def SYS_READ : Int64 := 63
def SYS_WRITE : Int64 := 64
def SYS_PREAD64 : Int64 := 67
def SYS_PWRITE64 : Int64 := 68
def SYS_OPENAT2 : Int64 := 437

/-! ## File bookkeeping -/

/-- The pathname argument of an `openat`, as captured from user memory: `args[1]` is at offset
24 of the record. -/
def capturePath (h : Helpers) (ctx : TracePointContext) : Except Int32 PendingOpen := do
  let filenamePtr ← ctx.readAt UInt64 24
  let (path, pathLen) ← h.probeReadUserStrBytes filenamePtr FILE_PATH_MAX
  return { path, pathLen := UInt16.ofNat pathLen }

/-- `stash_open_path`. -/
def stashOpenPath (h : Helpers) (ctx : TracePointContext) (pid : UInt32) (k : Kernel) :
    Kernel × Except Int32 Unit :=
  match capturePath h ctx with
  | .error e => (k, .error e)
  | .ok pending =>
    match BpfHashMap.insert k.pendingOpenPath pid pending h.insertError with
    | .error e => (k, .error e)
    | .ok m => ({ k with pendingOpenPath := m }, .ok ())

/-- The record of a successful open: the descriptor is the return value. -/
def openEvent (h : Helpers) (pid : UInt32) (ret : Int64) (pending : PendingOpen) : FileEvent where
  pid
  kind := .Open
  fd := ret.toInt32
  bytes := 0
  pathLen := pending.pathLen
  path := pending.path
  timestampNs := h.laterKtimeNs

/-- `FILE_EVENTS.output`. -/
def Kernel.outputFile (k : Kernel) (h : Helpers) (event : FileEvent) :
    Kernel × Except Int32 Unit :=
  match k.fileEvents.output event h.fileEventsError with
  | .error e => (k, .error e)
  | .ok fileEvents => ({ k with fileEvents }, .ok ())

/-- `emit_open_result`: the entry is removed whatever the outcome of the call. -/
def emitOpenResult (h : Helpers) (ctx : TracePointContext) (pid : UInt32) (k : Kernel) :
    Kernel × Except Int32 Unit :=
  let pending := k.pendingOpenPath.get pid
  let k := { k with pendingOpenPath := k.pendingOpenPath.remove pid }
  match pending with
  | none => (k, .ok ())
  | some pending =>
    match ctx.readAt Int64 16 with
    | .error e => (k, .error e)
    | .ok ret =>
      if ret < 0 then (k, .ok ()) else k.outputFile h (openEvent h pid ret pending)

/-- `stash_fd`: `args[0]`, at offset 16, is the descriptor of each of the five syscalls. -/
def stashFd (h : Helpers) (ctx : TracePointContext) (pid : UInt32) (k : Kernel) :
    Kernel × Except Int32 Unit :=
  match ctx.readAt Int64 16 with
  | .error e => (k, .error e)
  | .ok fd =>
    match BpfHashMap.insert k.pendingFd pid fd.toInt32 h.insertError with
    | .error e => (k, .error e)
    | .ok m => ({ k with pendingFd := m }, .ok ())

/-- The record of a successful call on a descriptor. -/
def fdEvent (h : Helpers) (pid : UInt32) (kind : FileEventKind) (fd : Int32) (bytes : Int64) :
    FileEvent where
  pid
  kind
  fd
  bytes
  pathLen := 0
  path := Vector.replicate FILE_PATH_MAX 0
  timestampNs := h.laterKtimeNs

/-- The common body of `emit_read_write` and `emit_close`: consume the stashed descriptor, and
report the byte count that `bytesOf` reads off the return value, if any. -/
def emitFd (h : Helpers) (ctx : TracePointContext) (pid : UInt32) (kind : FileEventKind)
    (bytesOf : Int64 → Option Int64) (k : Kernel) : Kernel × Except Int32 Unit :=
  match k.pendingFd.get pid with
  | none => (k, .ok ())
  | some fd =>
    let k := { k with pendingFd := k.pendingFd.remove pid }
    match ctx.readAt Int64 16 with
    | .error e => (k, .error e)
    | .ok ret =>
      match bytesOf ret with
      | none => (k, .ok ())
      | some bytes => k.outputFile h (fdEvent h pid kind fd bytes)

/-- A read or write failed when it returned a negative number. -/
def transferBytes (bytes : Int64) : Option Int64 := if bytes < 0 then none else some bytes

/-- A close failed when it returned anything but zero. -/
def closeBytes (ret : Int64) : Option Int64 := if ret ≠ 0 then none else some 0

lemma transferBytes_bind {α : Type} (ret : Int64) (g : Int64 → Option α) :
    (transferBytes ret).bind g = if ret < 0 then none else g ret := by
  unfold transferBytes
  split <;> rfl

lemma closeBytes_bind {α : Type} (ret : Int64) (g : Int64 → Option α) :
    (closeBytes ret).bind g = if ret ≠ 0 then none else g 0 := by
  unfold closeBytes
  split <;> rfl

/-- `emit_read_write`. -/
def emitReadWrite (h : Helpers) (ctx : TracePointContext) (pid : UInt32)
    (kind : FileEventKind) : Kernel → Kernel × Except Int32 Unit :=
  emitFd h ctx pid kind transferBytes

/-- `emit_close`. -/
def emitClose (h : Helpers) (ctx : TracePointContext) (pid : UInt32) :
    Kernel → Kernel × Except Int32 Unit :=
  emitFd h ctx pid .Close closeBytes

/-- The dispatch of `handle_file_syscall`, with the `Result` it discards. -/
def fileSyscall (h : Helpers) (ctx : TracePointContext) (kind : EventKind) (pid : UInt32)
    (nr : Int64) (k : Kernel) : Kernel × Except Int32 Unit :=
  match kind with
  | .Enter =>
    if nr = SYS_OPENAT ∨ nr = SYS_OPENAT2 then stashOpenPath h ctx pid k
    else if nr = SYS_READ ∨ nr = SYS_WRITE ∨ nr = SYS_PREAD64 ∨ nr = SYS_PWRITE64 ∨
        nr = SYS_CLOSE then stashFd h ctx pid k
    else (k, .ok ())
  | .Exit =>
    if nr = SYS_OPENAT ∨ nr = SYS_OPENAT2 then emitOpenResult h ctx pid k
    else if nr = SYS_READ ∨ nr = SYS_PREAD64 then emitReadWrite h ctx pid .Read k
    else if nr = SYS_WRITE ∨ nr = SYS_PWRITE64 then emitReadWrite h ctx pid .Write k
    else if nr = SYS_CLOSE then emitClose h ctx pid k
    else (k, .ok ())

/-- `handle_file_syscall`: errors are swallowed. -/
def handleFileSyscall (h : Helpers) (ctx : TracePointContext) (kind : EventKind) (pid : UInt32)
    (nr : Int64) (k : Kernel) : Kernel :=
  (fileSyscall h ctx kind pid nr k).1

/-! ## The programs -/

/-- `try_emit`.  A record lost to a full ring ends the firing: the file bookkeeping is
skipped. -/
def tryEmit (h : Helpers) (ctx : TracePointContext) (kind : EventKind) (k : Kernel) :
    Kernel × Except UInt32 UInt32 :=
  let pid := ctx.tgid
  if !k.matchesTarget h pid then (k, .ok 0)
  else
    match ctx.readAt Int64 SYSCALL_NR_OFFSET with
    | .error _ => (k, .error 1)
    | .ok syscallNr =>
      let event : SyscallEvent :=
        { pid, kind, syscallNr := syscallNr.toUInt64, timestampNs := h.ktimeNs }
      match k.events.output event h.eventsError with
      | .error _ => (k, .error 1)
      | .ok events => (handleFileSyscall h ctx kind pid syscallNr { k with events }, .ok 0)

/-- What a tracepoint program returns to the kernel: `Ok` and `Err` alike. -/
def exitCode : Except UInt32 UInt32 → UInt32
  | .ok ret => ret
  | .error ret => ret

def sysEnter (h : Helpers) (ctx : TracePointContext) (k : Kernel) : Kernel × UInt32 :=
  (tryEmit h ctx .Enter k).map id exitCode

def sysExit (h : Helpers) (ctx : TracePointContext) (k : Kernel) : Kernel × UInt32 :=
  (tryEmit h ctx .Exit k).map id exitCode

/-! ## What the file bookkeeping touches -/

lemma outputFile_eq (k : Kernel) (h : Helpers) (event : FileEvent) :
    (k.outputFile h event).1 =
      { k with fileEvents := k.fileEvents ++
          if h.fileEventsError = none then [RingBufItem.of event] else [] } := by
  unfold Kernel.outputFile RingBuf.output
  cases h.fileEventsError <;> simp

lemma stashOpenPath_frame (h : Helpers) (ctx : TracePointContext) (pid : UInt32) (k : Kernel) :
    (stashOpenPath h ctx pid k).1 =
      { k with pendingOpenPath := (stashOpenPath h ctx pid k).1.pendingOpenPath } := by
  unfold stashOpenPath
  split
  · rfl
  · split <;> rfl

lemma stashFd_frame (h : Helpers) (ctx : TracePointContext) (pid : UInt32) (k : Kernel) :
    (stashFd h ctx pid k).1 = { k with pendingFd := (stashFd h ctx pid k).1.pendingFd } := by
  unfold stashFd
  split
  · rfl
  · split <;> rfl

lemma emitOpenResult_frame (h : Helpers) (ctx : TracePointContext) (pid : UInt32) (k : Kernel) :
    (emitOpenResult h ctx pid k).1 =
      { k with
        pendingOpenPath := (emitOpenResult h ctx pid k).1.pendingOpenPath
        fileEvents := (emitOpenResult h ctx pid k).1.fileEvents } := by
  unfold emitOpenResult
  dsimp only
  split
  · rfl
  · split
    · rfl
    · split
      · rfl
      · rw [outputFile_eq]

lemma emitFd_frame (h : Helpers) (ctx : TracePointContext) (pid : UInt32) (kind : FileEventKind)
    (bytesOf : Int64 → Option Int64) (k : Kernel) :
    (emitFd h ctx pid kind bytesOf k).1 =
      { k with
        pendingFd := (emitFd h ctx pid kind bytesOf k).1.pendingFd
        fileEvents := (emitFd h ctx pid kind bytesOf k).1.fileEvents } := by
  unfold emitFd
  dsimp only
  split
  · rfl
  · split
    · rfl
    · split
      · rfl
      · rw [outputFile_eq]

section Untouched
variable (h : Helpers) (ctx : TracePointContext) (pid : UInt32) (k : Kernel)

@[simp] lemma pendingFd_stashOpenPath :
    (stashOpenPath h ctx pid k).1.pendingFd = k.pendingFd := by
  rw [stashOpenPath_frame]

@[simp] lemma fileEvents_stashOpenPath :
    (stashOpenPath h ctx pid k).1.fileEvents = k.fileEvents := by
  rw [stashOpenPath_frame]

@[simp] lemma pendingOpenPath_stashFd :
    (stashFd h ctx pid k).1.pendingOpenPath = k.pendingOpenPath := by
  rw [stashFd_frame]

@[simp] lemma fileEvents_stashFd : (stashFd h ctx pid k).1.fileEvents = k.fileEvents := by
  rw [stashFd_frame]

@[simp] lemma pendingFd_emitOpenResult :
    (emitOpenResult h ctx pid k).1.pendingFd = k.pendingFd := by
  rw [emitOpenResult_frame]

@[simp] lemma pendingOpenPath_emitFd (kind : FileEventKind) (bytesOf : Int64 → Option Int64) :
    (emitFd h ctx pid kind bytesOf k).1.pendingOpenPath = k.pendingOpenPath := by
  rw [emitFd_frame]

end Untouched

/-- **Frame.**  File bookkeeping writes the two stashes and `FILE_EVENTS` and nothing else. -/
lemma fileSyscall_frame (h : Helpers) (ctx : TracePointContext) (kind : EventKind)
    (pid : UInt32) (nr : Int64) (k : Kernel) :
    (fileSyscall h ctx kind pid nr k).1 =
      { k with
        pendingOpenPath := (fileSyscall h ctx kind pid nr k).1.pendingOpenPath
        pendingFd := (fileSyscall h ctx kind pid nr k).1.pendingFd
        fileEvents := (fileSyscall h ctx kind pid nr k).1.fileEvents } := by
  cases kind with
  | Enter =>
    simp only [fileSyscall]
    split
    · rw [stashOpenPath_frame]
    · split
      · rw [stashFd_frame]
      · rfl
  | Exit =>
    simp only [fileSyscall]
    split
    · rw [emitOpenResult_frame]
    · split
      · rw [emitReadWrite, emitFd_frame]
      · split
        · rw [emitReadWrite, emitFd_frame]
        · split
          · rw [emitClose, emitFd_frame]
          · rfl

/-! ## The two stashes and the records -/

/-- The kind of file access a syscall reports, if it is one of the seven. -/
def fileKind (nr : Int64) : Option FileEventKind :=
  if nr = SYS_OPENAT ∨ nr = SYS_OPENAT2 then some .Open
  else if nr = SYS_READ ∨ nr = SYS_PREAD64 then some .Read
  else if nr = SYS_WRITE ∨ nr = SYS_PWRITE64 then some .Write
  else if nr = SYS_CLOSE then some .Close
  else none

/-- The syscall stashes its pathname. -/
def usesPath (nr : Int64) : Bool := fileKind nr = some .Open

/-- The syscall stashes its descriptor. -/
def usesFd (nr : Int64) : Bool := (fileKind nr).isSome && !usesPath nr

/-- A syscall stashes one argument at most. -/
lemma not_usesPath_of_usesFd {nr : Int64} (h : usesFd nr = true) : ¬ usesPath nr = true := by
  simpa using (Bool.and_eq_true_iff.mp h).2

lemma not_usesFd_of_usesPath {nr : Int64} (h : usesPath nr = true) : ¬ usesFd nr = true :=
  fun hfd => not_usesPath_of_usesFd hfd h

/-- The record of a call that returned `ret`, given what is stashed for it. -/
def callEvent (h : Helpers) (pid : UInt32) (nr ret : Int64) (path : Option PendingOpen)
    (fd : Option Int32) : Option FileEvent :=
  match fileKind nr with
  | none => none
  | some .Open => if ret < 0 then none else path.map (openEvent h pid ret)
  | some .Close => if ret ≠ 0 then none else fd.map fun fd => fdEvent h pid .Close fd 0
  | some kind => if ret < 0 then none else fd.map fun fd => fdEvent h pid kind fd ret

/-- Every syscall number is dispatched to the branch of its kind. -/
lemma fileSyscall_eq (h : Helpers) (ctx : TracePointContext) (kind : EventKind) (pid : UInt32)
    (nr : Int64) (k : Kernel) :
    fileSyscall h ctx kind pid nr k =
      match fileKind nr, kind with
      | none, _ => (k, .ok ())
      | some .Open, .Enter => stashOpenPath h ctx pid k
      | some _, .Enter => stashFd h ctx pid k
      | some .Open, .Exit => emitOpenResult h ctx pid k
      | some .Close, .Exit => emitClose h ctx pid k
      | some fk, .Exit => emitReadWrite h ctx pid fk k := by
  unfold fileSyscall fileKind
  by_cases hopen : nr = SYS_OPENAT ∨ nr = SYS_OPENAT2
  · cases kind <;> simp [hopen]
  · by_cases hread : nr = SYS_READ ∨ nr = SYS_PREAD64
    · rcases hread with rfl | rfl <;> cases kind <;> rfl
    · by_cases hwrite : nr = SYS_WRITE ∨ nr = SYS_PWRITE64
      · rcases hwrite with rfl | rfl <;> cases kind <;> rfl
      · by_cases hclose : nr = SYS_CLOSE
        · subst hclose
          cases kind <;> rfl
        · have hfd : ¬ (nr = SYS_READ ∨ nr = SYS_WRITE ∨ nr = SYS_PREAD64 ∨
              nr = SYS_PWRITE64 ∨ nr = SYS_CLOSE) := by
            rintro (rfl | rfl | rfl | rfl | rfl) <;> simp_all
          cases kind <;>
            simp only [if_neg hopen, if_neg hread, if_neg hwrite, if_neg hclose, if_neg hfd]

/-- What a stash holds for `pid` after an insertion of `captured` was attempted. -/
def stashedAt {ν : Type} {cap : ℕ} (m : BpfHashMap UInt32 ν cap) (h : Helpers) (pid : UInt32)
    (captured : Except Int32 ν) : Option ν :=
  match captured with
  | .ok v => if h.insertError = none ∧ m.HasRoom pid then some v else m.get pid
  | .error _ => m.get pid

lemma get_insert_stash {ν : Type} {cap : ℕ} {m m' : BpfHashMap UInt32 ν cap} {h : Helpers}
    {pid : UInt32} {v : ν} (hm : BpfHashMap.insert m pid v h.insertError = .ok m')
    (p : UInt32) : m'.get p = if p = pid then stashedAt m h pid (.ok v) else m.get p := by
  have hok := BpfHashMap.insert_eq_ok_iff.mp ⟨m', hm⟩
  rw [BpfHashMap.get_of_insert_ok hm, stashedAt, if_pos hok]

lemma stashedAt_of_insert_error {ν : Type} {cap : ℕ} {m : BpfHashMap UInt32 ν cap}
    {h : Helpers} {pid : UInt32} {v : ν} {e : Int32}
    (hm : BpfHashMap.insert m pid v h.insertError = .error e) :
    stashedAt m h pid (.ok v) = m.get pid := by
  refine if_neg fun hok => ?_
  obtain ⟨m', hm'⟩ := BpfHashMap.insert_eq_ok_iff.mpr hok
  rw [hm] at hm'
  simp at hm'

section Stashes
variable (h : Helpers) (ctx : TracePointContext) (kind : EventKind) (pid : UInt32) (nr : Int64)
  (k : Kernel)

lemma get_pendingOpenPath_stashOpenPath (p : UInt32) :
    (stashOpenPath h ctx pid k).1.pendingOpenPath.get p =
      if p = pid then stashedAt k.pendingOpenPath h pid (capturePath h ctx)
      else k.pendingOpenPath.get p := by
  unfold stashOpenPath
  cases capturePath h ctx with
  | error e =>
    dsimp only [stashedAt]
    split <;> simp_all
  | ok q =>
    dsimp only
    cases hm : BpfHashMap.insert k.pendingOpenPath pid q h.insertError with
    | ok m => exact get_insert_stash hm p
    | error e =>
      rw [stashedAt_of_insert_error hm]
      split <;> simp_all

lemma get_pendingFd_stashFd (p : UInt32) :
    (stashFd h ctx pid k).1.pendingFd.get p =
      if p = pid then stashedAt k.pendingFd h pid ((ctx.readAt Int64 16).map Int64.toInt32)
      else k.pendingFd.get p := by
  unfold stashFd
  cases ctx.readAt Int64 16 with
  | error e =>
    dsimp only [stashedAt, Except.map]
    split <;> simp_all
  | ok fd =>
    dsimp only [Except.map]
    cases hm : BpfHashMap.insert k.pendingFd pid fd.toInt32 h.insertError with
    | ok m => exact get_insert_stash hm p
    | error e =>
      rw [stashedAt_of_insert_error hm]
      split <;> simp_all

/-- What reporting `event`, if any, appends to `FILE_EVENTS`. -/
def recorded (event : Option FileEvent) : RingBuf FileEvent :=
  if h.fileEventsError = none then event.toList.map RingBufItem.of else []

@[simp] lemma recorded_none : recorded h none = [] := by
  simp [recorded]

lemma outputFile_eq_recorded (event : FileEvent) :
    (k.outputFile h event).1 =
      { k with fileEvents := k.fileEvents ++ recorded h (some event) } := by
  rw [outputFile_eq]
  rfl

lemma emitOpenResult_eq :
    (emitOpenResult h ctx pid k).1 =
      { k with
        pendingOpenPath := k.pendingOpenPath.remove pid
        fileEvents := k.fileEvents ++ recorded h
          ((ctx.readAt Int64 16).toOption.bind fun ret =>
            if ret < 0 then none else (k.pendingOpenPath.get pid).map (openEvent h pid ret)) } := by
  unfold emitOpenResult
  dsimp only
  cases k.pendingOpenPath.get pid with
  | none => cases ctx.readAt Int64 16 <;> simp [Except.toOption]
  | some q =>
    cases ctx.readAt Int64 16 with
    | error e => simp [Except.toOption]
    | ok ret =>
      by_cases hret : ret < 0 <;> simp [Except.toOption, hret, outputFile_eq_recorded]

lemma get_pendingOpenPath_emitOpenResult (p : UInt32) :
    (emitOpenResult h ctx pid k).1.pendingOpenPath.get p =
      if p = pid then none else k.pendingOpenPath.get p := by
  rw [emitOpenResult_eq]
  exact BoundedMap.get_remove _ _ _

lemma get_pendingFd_emitFd (fk : FileEventKind) (bytesOf : Int64 → Option Int64) (p : UInt32) :
    (emitFd h ctx pid fk bytesOf k).1.pendingFd.get p =
      if p = pid then none else k.pendingFd.get p := by
  unfold emitFd
  cases hfd : k.pendingFd.get pid with
  | none =>
    dsimp only
    split <;> simp_all
  | some fd =>
    dsimp only
    split
    · exact BoundedMap.get_remove _ _ _
    · split
      · exact BoundedMap.get_remove _ _ _
      · rw [outputFile_eq]
        exact BoundedMap.get_remove _ _ _

lemma fileEvents_emitFd (fk : FileEventKind) (bytesOf : Int64 → Option Int64) :
    (emitFd h ctx pid fk bytesOf k).1.fileEvents =
      k.fileEvents ++ recorded h
        ((ctx.readAt Int64 16).toOption.bind fun ret => (bytesOf ret).bind fun bytes =>
          (k.pendingFd.get pid).map fun fd => fdEvent h pid fk fd bytes) := by
  unfold emitFd
  cases k.pendingFd.get pid with
  | none =>
    cases ctx.readAt Int64 16 with
    | error e => simp [Except.toOption]
    | ok ret => cases bytesOf ret <;> simp [Except.toOption]
  | some fd =>
    cases ctx.readAt Int64 16 with
    | error e => simp [Except.toOption]
    | ok ret => cases hb : bytesOf ret <;> simp [Except.toOption, hb, outputFile_eq_recorded]

/-- The pathname stash: an `openat` writes its process' entry on entry and drops it on exit. -/
lemma get_pendingOpenPath_fileSyscall (p : UInt32) :
    (fileSyscall h ctx kind pid nr k).1.pendingOpenPath.get p =
      if usesPath nr = true ∧ p = pid then
        match kind with
        | .Enter => stashedAt k.pendingOpenPath h pid (capturePath h ctx)
        | .Exit => none
      else k.pendingOpenPath.get p := by
  rw [fileSyscall_eq, usesPath]
  rcases hk : fileKind nr with _ | (_ | _ | _ | _) <;> cases kind <;>
    simp [emitReadWrite, emitClose, get_pendingOpenPath_stashOpenPath,
      get_pendingOpenPath_emitOpenResult]

/-- The descriptor stash, likewise. -/
lemma get_pendingFd_fileSyscall (p : UInt32) :
    (fileSyscall h ctx kind pid nr k).1.pendingFd.get p =
      if usesFd nr = true ∧ p = pid then
        match kind with
        | .Enter => stashedAt k.pendingFd h pid ((ctx.readAt Int64 16).map Int64.toInt32)
        | .Exit => none
      else k.pendingFd.get p := by
  rw [fileSyscall_eq, usesFd, usesPath]
  rcases hk : fileKind nr with _ | (_ | _ | _ | _) <;> cases kind <;>
    simp [emitReadWrite, emitClose, get_pendingFd_stashFd, get_pendingFd_emitFd]

/-- The records: only an exit reports, and what it reports is the call with the stashed
arguments. -/
lemma fileEvents_fileSyscall :
    (fileSyscall h ctx kind pid nr k).1.fileEvents =
      k.fileEvents ++
        match kind with
        | .Enter => []
        | .Exit => recorded h ((ctx.readAt Int64 16).toOption.bind fun ret =>
            callEvent h pid nr ret (k.pendingOpenPath.get pid) (k.pendingFd.get pid)) := by
  rw [fileSyscall_eq]
  unfold callEvent
  rcases hk : fileKind nr with _ | (_ | _ | _ | _) <;> cases kind <;>
    simp [emitReadWrite, emitClose, fileEvents_emitFd, emitOpenResult_eq, transferBytes_bind,
      closeBytes_bind]

end Stashes

end Peekbeam
