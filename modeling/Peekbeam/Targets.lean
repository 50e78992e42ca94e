import Mathlib.Data.Bool.AllAny
import Peekbeam.Containers
import Peekbeam.Foundation.Script
import Peekbeam.PlainText

/-!
# Resolving the target

Before anything is traced, `--container` and `--pod` are turned into the id and the path of a
cgroup.  The container runtime is asked for a process of the container, and that process's
`/proc/<pid>/cgroup` for the cgroup; for a pod, `kubectl` is asked first which node and which
container it is.  `Machine` is what such a resolution looks at, and the resolution itself a
script of commands (`Foundation/Script.lean`).

`resolves_iff` says what is known of a target that was resolved, whatever the commands have
answered, and `pods_elsewhere_are_refused` that the container runtime of this node is
not even asked about a pod of another one.  Conversely, if the commands tell the truth,
`resolved_target_traces_its_cgroup` says that a container, a pod of Docker and a pod of containerd
are all resolved, and that the programs then accept exactly the processes of the container's cgroup.

How Rust's `{:?}` quotes a text is a parameter, `debug`; it is used in messages only.
-/

namespace Peekbeam

open Str

/-! ## The machine -/

/-- A command, as `std::process::Command` builds it.  No shell is involved. -/
structure Command where
  program : Text
  args : List Text
  env : List (Text × Text) := []
  deriving DecidableEq

/-- What a command that was started has left, its texts decoded lossily. -/
structure Output where
  success : Bool
  stdout : Text
  stderr : Text
  deriving DecidableEq

/-- What is found on the machine. -/
structure Machine where
  files : Files
  /-- `Path::exists`. -/
  pathExists : Text → Bool
  /-- `fs::metadata(path).ino()`. -/
  inode : Text → Option UInt64
  /-- `env::var_os(name).is_some()`. -/
  varSet : Text → Bool
  /-- `env::var(name).ok()`. -/
  var : Text → Option Text
  /-- `Command::output`; none if the command cannot be started. -/
  output : Command → Option Output
  effectiveUid : ℕ
  /-- `caps::has_cap(None, Effective, cap).unwrap_or(false)`. -/
  hasCap : Text → Bool

/-- A resolution: commands that are run, and an error or a result. -/
abbrev Resolution (α : Type) := Script Command (Option Output) Text α

/-- Run a command and go on with its output, if it was started and has succeeded. -/
def query {α : Type} (command : Command) (notRun : Text) (refused : Text → Text)
    (next : Text → Resolution α) : Resolution α :=
  .ask command fun
    | none => .fail notRun
    | some output =>
      if !output.success then .fail (refused (trim output.stderr)) else next output.stdout

/-! ## Containers -/

structure ContainerTarget where
  cgroupId : UInt64
  fullId : Text
  /-- Path under `CGROUP_ROOT`. -/
  cgroupPath : Text

section Resolve
variable (debug : Text → Text) (m : Machine)

def procPath (pid : UInt32) : Text := "/proc/".toList ++ decimal pid.toNat

def cgroupFile (pid : UInt32) : Text := procPath pid ++ "/cgroup".toList

/-- `cgroup_path_for_pid`. -/
def cgroupPathForPid (pid : UInt32) : Except Text Text :=
  if !m.pathExists (CGROUP_ROOT ++ "/cgroup.controllers".toList) then
    .error ("needs the unified cgroup v2 hierarchy (no cgroup.controllers under ".toList ++
      CGROUP_ROOT ++ "); cgroup v1 hosts aren't supported yet".toList)
  else
    match m.files (cgroupFile pid) with
    | none => .error ("reading ".toList ++ cgroupFile pid)
    | some contents =>
      match (lines contents).findSome? (stripPrefix "0::".toList) with
      | none =>
        .error ("no unified (cgroup v2) entry in ".toList ++ cgroupFile pid ++
          "; this container may be running under cgroup v1, which isn't supported yet".toList)
      | some path => .ok path

/-- `from_pid`. -/
def fromPid (pid : UInt32) (fullId : Text) : Except Text ContainerTarget :=
  if pid = 0 then
    .error ("container `".toList ++ fullId ++
      "` is not running (runtime reports PID 0)".toList)
  else
    match cgroupPathForPid m pid with
    | .error e => .error e
    | .ok cgroupPath =>
      let fullPath := CGROUP_ROOT ++ cgroupPath
      match m.inode fullPath with
      | none => .error ("statting cgroup path ".toList ++ fullPath)
      | some ino => .ok { cgroupId := ino, fullId, cgroupPath }

/-- `docker_command`, with the arguments it is given. -/
def dockerCommand (args : List Text) : Command where
  program := "docker".toList
  args
  env :=
    if m.varSet "DOCKER_HOST".toList then []
    else
      match (m.var "SUDO_UID".toList).bind parseU32 with
      | none => []
      | some uid =>
        let socket := "/run/user/".toList ++ decimal uid.toNat ++ "/docker.sock".toList
        if m.pathExists socket then [("DOCKER_HOST".toList, "unix://".toList ++ socket)] else []

def dockerInspect (idOrName : Text) : Command :=
  dockerCommand m ["inspect".toList, "--format".toList,
    "\x7b\x7b.State.Pid\x7d\x7d|\x7b\x7b.Id\x7d\x7d".toList, idOrName]

/-- `container::resolve`. -/
def resolveContainer (idOrName : Text) : Resolution ContainerTarget :=
  query (dockerInspect m idOrName)
    "running `docker inspect` (is Docker installed and on PATH?)".toList
    (fun stderr => "no such container: `".toList ++ idOrName ++ "` (docker inspect: ".toList ++
      stderr ++ ")".toList)
    fun stdout =>
      match splitOnce '|' (trim stdout) with
      | none => .fail ("unexpected `docker inspect` output: ".toList ++ debug stdout)
      | some (pidStr, fullId) =>
        match parseU32 pidStr with
        | none =>
          .fail ("parsing container PID from docker inspect: ".toList ++ debug pidStr)
        | some pid => .ofExcept (fromPid m pid (trim fullId))

/-! ## Pods -/

/-- `eq_ignore_ascii_case`. -/
def eqIgnoreAsciiCase (s t : Text) : Bool := s.map Char.toLower = t.map Char.toLower

def hostname : Text := trim ((m.files "/proc/sys/kernel/hostname".toList).getD [])

/-- `check_same_node`. -/
def checkSameNode (nodeName : Text) : Except Text Unit :=
  if eqIgnoreAsciiCase (hostname m) nodeName then .ok ()
  else
    .error ("this pod is scheduled on node `".toList ++ nodeName ++
      "`, but peekbeam is running on `".toList ++ hostname m ++ "`.\n".toList ++
      "peekbeam only sees its own node's kernel (readme.md §3.1) — ".toList ++
      "it can't reach across nodes.\nRun it on that node instead:\n".toList ++
      "  kubectl debug node/".toList ++ nodeName ++
      " -it --image=<peekbeam-image> -- peekbeam --container <id>\n".toList ++
      "(Usage Mode 2 — needs a peekbeam container image, not built yet), ".toList ++
      "or SSH directly to `".toList ++ nodeName ++ "` (Usage Mode 1).".toList)

def crictlInspect (id : Text) : Command where
  program := "crictl".toList
  args := ["inspect".toList, "--output".toList, "go-template".toList, "--template".toList,
    "\x7b\x7b.info.pid\x7d\x7d".toList, id]

/-- `resolve_containerd`. -/
def resolveContainerd (id : Text) : Resolution ContainerTarget :=
  query (crictlInspect id)
    "running `crictl inspect` (is crictl installed and configured?)".toList
    (fun stderr => "no such containerd container: `".toList ++ id ++ "` (crictl: ".toList ++
      stderr ++ ")".toList)
    fun stdout =>
      match parseU32 (trim stdout) with
      | none => .fail ("parsing container PID from crictl inspect: ".toList ++ debug stdout)
      | some pid => .ofExcept (fromPid m pid id)

def kubectlGetPod (pod ns : Text) : Command where
  program := "kubectl".toList
  args := ["get".toList, "pod".toList, pod, "-n".toList, ns, "-o".toList,
    "jsonpath=\x7b.spec.nodeName\x7d|\x7b.status.containerStatuses[0].containerID\x7d".toList]

/-- `pod::resolve`. -/
def resolvePod (pod ns : Text) : Resolution ContainerTarget :=
  query (kubectlGetPod pod ns)
    "running `kubectl get pod` (is kubectl installed and configured?)".toList
    (fun stderr => "no such pod: `".toList ++ pod ++ "` in namespace `".toList ++ ns ++
      "` (kubectl: ".toList ++ stderr ++ ")".toList)
    fun stdout =>
      match splitOnce '|' (trim stdout) with
      | none => .fail ("unexpected `kubectl get pod` output: ".toList ++ debug stdout)
      | some (nodeName, containerRef) =>
        if containerRef.isEmpty then
          .fail ("pod `".toList ++ pod ++
            "` has no running container yet (check `kubectl get pod ".toList ++ pod ++
            " -n ".toList ++ ns ++ "`)".toList)
        else
          match checkSameNode m nodeName with
          | .error e => .fail e
          | .ok () =>
            match splitOnceAt "://".toList containerRef with
            | none =>
              .fail ("unrecognized containerID format from kubectl: ".toList ++ debug containerRef)
            | some (runtime, id) =>
              if runtime = "docker".toList then resolveContainer debug m id
              else if runtime = "containerd".toList then resolveContainerd debug m id
              else
                .fail ("unsupported container runtime `".toList ++ runtime ++
                  "` reported by kubectl (only docker and containerd are supported)".toList)

/-! ## The command line -/

/-- The target as it is given: exactly one of `--pid`, `--container` and `--pod`. -/
inductive TargetArg
  | Pid (pid : UInt32)
  | Container (idOrName : Text)
  | Pod (name ns : Text)

/-- The target as `main` keeps it. -/
inductive ResolvedTarget
  | Pid (pid : UInt32)
  | Container (c : ContainerTarget)
  | Pod (name : Text) (inner : ContainerTarget)

/-- `check_target_exists`. -/
def checkTargetExists (pid : UInt32) : Except Text Unit :=
  if m.pathExists (procPath pid) then .ok ()
  else
    .error ("no such process: PID ".toList ++ decimal pid.toNat ++ " (checked ".toList ++
      procPath pid ++ ")".toList)

/-- The first step of `main`. -/
def resolveTarget : TargetArg → Resolution ResolvedTarget
  | .Pid pid => .ofExcept ((checkTargetExists m pid).map fun _ => .Pid pid)
  | .Container idOrName => (resolveContainer debug m idOrName).map .Container
  | .Pod name ns => (resolvePod debug m name ns).map (.Pod name)

end Resolve

/-- `&s[..n]`, by bytes; none is a panic. -/
def sliceBytes : ℕ → Text → Option Text
  | 0, _ => some []
  | _ + 1, [] => none
  | n + 1, c :: s =>
    if c.utf8Size ≤ n + 1 then (sliceBytes (n + 1 - c.utf8Size) s).map (c :: ·) else none

/-- The end of a label. -/
def cgroupLabel (cgroupId : UInt64) : Text :=
  " (cgroup ".toList ++ decimal cgroupId.toNat ++ [')']

namespace ResolvedTarget

/-- `label`; none is a panic. -/
def label : ResolvedTarget → Option Text
  | .Pid pid => some ("PID ".toList ++ decimal pid.toNat)
  | .Container c =>
    (sliceBytes (min 12 (c.fullId.map Char.utf8Size).sum) c.fullId).map fun short =>
      "container ".toList ++ short ++ cgroupLabel c.cgroupId
  | .Pod name inner => some ("pod ".toList ++ name ++ cgroupLabel inner.cgroupId)

/-- What `main` puts into the filters. -/
def filter : ResolvedTarget → Target
  | .Pid pid => .Pid pid
  | .Container c => .Container c.cgroupId
  | .Pod _ inner => .Pod inner.cgroupId

/-- `memory_target`. -/
def memoryTarget : ResolvedTarget → MemoryTarget
  | .Pid pid => .Pid pid
  | .Container c => .Cgroup c.cgroupPath
  | .Pod _ inner => .Cgroup inner.cgroupPath

end ResolvedTarget

/-! ## Labels -/

lemma isDigit_of_mem_decimal {n : ℕ} {c : Char} (h : c ∈ decimal n) : c.isDigit = true :=
  isDigit_of_mem h

lemma decimal_inj {n n' : ℕ} (h : decimal n = decimal n') : n = n' := by
  have hread := congrArg (fun ds => Nat.ofDigitChars 10 ds 0) h
  simpa [decimal] using hread

/-- A number in parentheses can be read from the end. -/
lemma rtakeWhile_isDigit (s : Text) (n : ℕ) :
    (s ++ ' ' :: (decimal n ++ [')'])).dropLast.rtakeWhile Char.isDigit = decimal n := by
  have hshape : s ++ ' ' :: (decimal n ++ [')']) = (s ++ ' ' :: decimal n) ++ [')'] := by
    rw [List.append_assoc, List.cons_append]
  rw [hshape, List.dropLast_concat, List.rtakeWhile, List.reverse_append, List.reverse_cons,
    List.append_assoc,
    List.takeWhile_append_of_pos fun c hc => isDigit_of_mem_decimal (List.mem_reverse.mp hc),
    List.singleton_append, List.takeWhile_cons_of_neg (by decide), List.append_nil,
    List.reverse_reverse]

lemma cgroupLabel_inj {s s' : Text} {id id' : UInt64}
    (h : s ++ cgroupLabel id = s' ++ cgroupLabel id') : id = id' := by
  have hassoc : ∀ s pre d : Text,
      s ++ (pre ++ [' '] ++ d ++ [')']) = (s ++ pre) ++ ' ' :: (d ++ [')']) := by simp
  have hopen : " (cgroup ".toList = " (cgroup".toList ++ [' '] := by decide
  have hend : ∀ (s : Text) (id : UInt64),
      (s ++ cgroupLabel id).dropLast.rtakeWhile Char.isDigit = decimal id.toNat := fun s id =>
    calc (s ++ (" (cgroup ".toList ++ decimal id.toNat ++ [')'])).dropLast.rtakeWhile Char.isDigit
        = (s ++ (" (cgroup".toList ++ [' '] ++ decimal id.toNat ++ [')'])).dropLast.rtakeWhile
            Char.isDigit :=
          congrArg (fun t : Text =>
            (s ++ (t ++ decimal id.toNat ++ [')'])).dropLast.rtakeWhile Char.isDigit) hopen
      _ = decimal id.toNat := by rw [hassoc]; exact rtakeWhile_isDigit _ _
  have hdigits := congrArg (fun s => s.dropLast.rtakeWhile Char.isDigit) h
  simp only [hend] at hdigits
  exact UInt64.toNat_inj.mp (decimal_inj hdigits)

/-- What a label looks like: the three kinds of target differ in its first letter, and all but the
first end with the id of a cgroup. -/
lemma label_eq {t : ResolvedTarget} {s : Text} (h : t.label = some s) :
    (∃ pid, t.filter = .Pid pid ∧ s = 'P' :: ("ID ".toList ++ decimal pid.toNat)) ∨
    (∃ id rest, t.filter = .Container id ∧ s = ('c' :: rest) ++ cgroupLabel id) ∨
    (∃ id rest, t.filter = .Pod id ∧ s = ('p' :: rest) ++ cgroupLabel id) := by
  cases t with
  | Pid pid => exact Or.inl ⟨pid, rfl, (Option.some.inj h).symm⟩
  | Container c =>
    obtain ⟨short, -, rfl⟩ := Option.map_eq_some_iff.mp h
    exact Or.inr (Or.inl ⟨c.cgroupId, "ontainer ".toList ++ short, rfl, rfl⟩)
  | Pod name inner =>
    obtain rfl := Option.some.inj h
    exact Or.inr (Or.inr ⟨inner.cgroupId, "od ".toList ++ name, rfl, rfl⟩)

/-- **A label tells what is traced.**  Two targets with the same label have the same filter, so
the header of a report says which process or cgroup it is about. -/
theorem label_determines_filter {t t' : ResolvedTarget} {s : Text} (h : t.label = some s)
    (h' : t'.label = some s) : t.filter = t'.filter := by
  rcases label_eq h with ⟨pid, hf, hs⟩ | ⟨id, rest, hf, hs⟩ | ⟨id, rest, hf, hs⟩ <;>
    rcases label_eq h' with ⟨pid', hf', hs'⟩ | ⟨id', rest', hf', hs'⟩ | ⟨id', rest', hf', hs'⟩
  · have hdigits := List.append_cancel_left (List.cons.inj (hs.symm.trans hs')).2
    rw [hf, hf', UInt32.toNat_inj.mp (decimal_inj hdigits)]
  · exact absurd (List.cons.inj (hs.symm.trans hs')).1 (by decide)
  · exact absurd (List.cons.inj (hs.symm.trans hs')).1 (by decide)
  · exact absurd (List.cons.inj (hs.symm.trans hs')).1 (by decide)
  · rw [hf, hf', cgroupLabel_inj (hs.symm.trans hs')]
  · exact absurd (List.cons.inj (hs.symm.trans hs')).1 (by decide)
  · exact absurd (List.cons.inj (hs.symm.trans hs')).1 (by decide)
  · exact absurd (List.cons.inj (hs.symm.trans hs')).1 (by decide)
  · rw [hf, hf', cgroupLabel_inj (hs.symm.trans hs')]

/-- A container in cgroup 9, known by a long id and a path. -/
def longId (rest path : Text) : ContainerTarget where
  fullId := "0123456789ab".toList ++ rest
  cgroupPath := path
  cgroupId := 9

/-- A pod whose name ends like the label of a container in cgroup 9. -/
def trickyPod : ResolvedTarget :=
  .Pod "web (cgroup 9)".toList
    { fullId := "ab".toList, cgroupPath := "/pod".toList, cgroupId := 8 }

/-- Two ids that are the same once cut belong to one cgroup if the labels agree, and no target in
another cgroup has the label of `trickyPod`. -/
theorem label_determines_filter_cutIds :
    let c := longId "cd".toList "/docker/a".toList
    let c' := longId "ef".toList "/docker/b".toList
    c.fullId ≠ c'.fullId ∧
      (ResolvedTarget.Container c).label = some "container 0123456789ab (cgroup 9)".toList ∧
      (ResolvedTarget.Container c').label = some "container 0123456789ab (cgroup 9)".toList ∧
      (ResolvedTarget.Container c).filter = (ResolvedTarget.Container c').filter ∧
      trickyPod.label = some "pod web (cgroup 9) (cgroup 8)".toList ∧
      ∀ t : ResolvedTarget, t.label = some "pod web (cgroup 9) (cgroup 8)".toList →
        t.filter = .Pod 8 := by
  intro c c'
  have hlabel : (ResolvedTarget.Container c).label =
      some "container 0123456789ab (cgroup 9)".toList := by decide +kernel
  have hlabel' : (ResolvedTarget.Container c').label =
      some "container 0123456789ab (cgroup 9)".toList := by decide +kernel
  have htricky : trickyPod.label = some "pod web (cgroup 9) (cgroup 8)".toList := by
    decide +kernel
  have hcut : c.fullId ≠ c'.fullId := by decide +kernel
  exact ⟨hcut, hlabel, hlabel', label_determines_filter hlabel hlabel', htricky,
    fun t ht => label_determines_filter ht htricky⟩

/-! ## What resolution relies on -/

/-- What is known of a container target: there is a process whose entry in the unified hierarchy
is the path, on a host that has one, and the id is that of the path. -/
structure ContainerTarget.Grounded (m : Machine) (c : ContainerTarget) (pid : UInt32) : Prop where
  running : pid ≠ 0
  unified : m.pathExists (CGROUP_ROOT ++ "/cgroup.controllers".toList) = true
  listed : ∃ contents, m.files (cgroupFile pid) = some contents ∧
    (lines contents).find? ("0::".toList.isPrefixOf ·) = some ("0::".toList ++ c.cgroupPath)
  inode : m.inode (CGROUP_ROOT ++ c.cgroupPath) = some c.cgroupId

/-- A command has succeeded, and its output starts and ends as said. -/
def Machine.Answers (m : Machine) (command : Command) (stdout : Text) : Prop :=
  ∃ output, m.output command = some output ∧ output.success = true ∧ output.stdout = stdout

/-- Docker names a process of the container, and its full id. -/
def DockerReports (m : Machine) (idOrName : Text) (pid : UInt32) (fullId : Text) : Prop :=
  ∃ stdout pidStr full, m.Answers (dockerInspect m idOrName) stdout ∧
    splitOnce '|' (trim stdout) = some (pidStr, full) ∧ parseU32 pidStr = some pid ∧
    trim full = fullId

/-- Containerd names a process of the container. -/
def CrictlReports (m : Machine) (id : Text) (pid : UInt32) : Prop :=
  ∃ stdout, m.Answers (crictlInspect id) stdout ∧ parseU32 (trim stdout) = some pid

/-- Kubernetes names the node of the pod, and its first container. -/
def KubectlReports (m : Machine) (pod ns nodeName containerRef : Text) : Prop :=
  ∃ stdout, m.Answers (kubectlGetPod pod ns) stdout ∧
    splitOnce '|' (trim stdout) = some (nodeName, containerRef)

/-- The targets that an argument names, by way of what the commands report. -/
inductive TargetArg.Names (m : Machine) : TargetArg → ResolvedTarget → Prop
  | pid {pid : UInt32} (h : m.pathExists (procPath pid) = true) : Names m (.Pid pid) (.Pid pid)
  | container {idOrName : Text} {c : ContainerTarget} {pid : UInt32}
      (h : DockerReports m idOrName pid c.fullId) (hc : c.Grounded m pid) :
      Names m (.Container idOrName) (.Container c)
  | dockerPod {name ns nodeName ref id : Text} {c : ContainerTarget} {pid : UInt32}
      (hpod : KubectlReports m name ns nodeName ref)
      (hnode : eqIgnoreAsciiCase (hostname m) nodeName = true)
      (href : splitOnceAt "://".toList ref = some ("docker".toList, id))
      (h : DockerReports m id pid c.fullId) (hc : c.Grounded m pid) :
      Names m (.Pod name ns) (.Pod name c)
  | containerdPod {name ns nodeName ref : Text} {c : ContainerTarget} {pid : UInt32}
      (hpod : KubectlReports m name ns nodeName ref)
      (hnode : eqIgnoreAsciiCase (hostname m) nodeName = true)
      (href : splitOnceAt "://".toList ref = some ("containerd".toList, c.fullId))
      (h : CrictlReports m c.fullId pid) (hc : c.Grounded m pid) :
      Names m (.Pod name ns) (.Pod name c)

section Resolve
variable {debug : Text → Text} {m : Machine}

lemma query_ok_iff {α : Type} {command : Command} {notRun : Text} {refused : Text → Text}
    {next : Text → Resolution α} {a : α} :
    (query command notRun refused next).result m.output = .ok a ↔
      ∃ stdout, m.Answers command stdout ∧ (next stdout).result m.output = .ok a := by
  unfold query Machine.Answers
  rw [Script.result_ask]
  cases m.output command with
  | none => simp
  | some output =>
    cases hsuccess : output.success <;> simp [hsuccess]

lemma log_query {α : Type} {command : Command} {notRun : Text} {refused : Text → Text}
    {next : Text → Resolution α} :
    (query command notRun refused next).log m.output = [command] ∨
      ∃ stdout, m.Answers command stdout ∧
        (query command notRun refused next).log m.output =
          command :: (next stdout).log m.output := by
  unfold query Machine.Answers
  rw [Script.log_ask]
  cases m.output command with
  | none => exact Or.inl rfl
  | some output =>
    cases hsuccess : output.success with
    | false => exact Or.inl (by simp [hsuccess])
    | true => exact Or.inr ⟨output.stdout, ⟨output, rfl, hsuccess, rfl⟩, by simp [hsuccess]⟩

lemma cgroupPathForPid_ok_iff {pid : UInt32} {path : Text} :
    cgroupPathForPid m pid = .ok path ↔
      m.pathExists (CGROUP_ROOT ++ "/cgroup.controllers".toList) = true ∧
      ∃ contents, m.files (cgroupFile pid) = some contents ∧
        (lines contents).find? ("0::".toList.isPrefixOf ·) = some ("0::".toList ++ path) := by
  unfold cgroupPathForPid
  cases hunified : m.pathExists (CGROUP_ROOT ++ "/cgroup.controllers".toList) with
  | false => simp
  | true =>
    cases hfile : m.files (cgroupFile pid) with
    | none => simp
    | some contents =>
      have hlisted := @findSome?_stripPrefix_eq_some "0::".toList path (lines contents)
      simp only [Bool.not_true, Bool.false_eq_true, if_false, true_and, Option.some.injEq,
        exists_eq_left']
      rw [← hlisted]
      cases (lines contents).findSome? (stripPrefix "0::".toList) <;> simp

/-- The target of a process is the grounded one. -/
lemma fromPid_ok_iff {pid : UInt32} {fullId : Text} {c : ContainerTarget} :
    fromPid m pid fullId = .ok c ↔ c.fullId = fullId ∧ c.Grounded m pid := by
  unfold fromPid
  by_cases hpid : pid = 0
  · rw [if_pos hpid]
    constructor
    · exact fun h => by simp at h
    · exact fun h => absurd hpid h.2.running
  · rw [if_neg hpid]
    cases hpath : cgroupPathForPid m pid with
    | error e =>
      constructor
      · exact fun h => by simp at h
      · rintro ⟨-, h⟩
        rw [cgroupPathForPid_ok_iff.mpr ⟨h.unified, h.listed⟩] at hpath
        simp at hpath
    | ok path =>
      obtain ⟨hunified, hlisted⟩ := cgroupPathForPid_ok_iff.mp hpath
      have hsame : c.Grounded m pid → c.cgroupPath = path := fun h =>
        Except.ok.inj ((cgroupPathForPid_ok_iff.mpr ⟨h.unified, h.listed⟩).symm.trans hpath)
      dsimp only
      cases hinode : m.inode (CGROUP_ROOT ++ path) with
      | none =>
        constructor
        · exact fun h => by simp at h
        · rintro ⟨-, h⟩
          have hpresent := h.inode
          rw [hsame h, hinode] at hpresent
          simp at hpresent
      | some ino =>
        constructor
        · intro h
          obtain rfl := Except.ok.inj h
          exact ⟨rfl, hpid, hunified, hlisted, hinode⟩
        · rintro ⟨rfl, h⟩
          have hpresent := h.inode
          rw [hsame h, hinode] at hpresent
          obtain rfl := Option.some.inj hpresent
          rw [← hsame h]

lemma resolveContainer_ok_iff {idOrName : Text} {c : ContainerTarget} :
    (resolveContainer debug m idOrName).result m.output = .ok c ↔
      ∃ pid, DockerReports m idOrName pid c.fullId ∧ c.Grounded m pid := by
  unfold resolveContainer DockerReports
  rw [query_ok_iff]
  constructor
  · rintro ⟨stdout, hstdout, hnext⟩
    cases hsplit : splitOnce '|' (trim stdout) with
    | none => simp [hsplit] at hnext
    | some parts =>
      obtain ⟨pidStr, full⟩ := parts
      cases hpid : parseU32 pidStr with
      | none => simp [hsplit, hpid] at hnext
      | some pid =>
        simp only [hsplit, hpid, Script.result_ofExcept, fromPid_ok_iff] at hnext
        exact ⟨pid, ⟨stdout, pidStr, full, hstdout, hsplit, hpid, hnext.1.symm⟩, hnext.2⟩
  · rintro ⟨pid, ⟨stdout, pidStr, full, hstdout, hsplit, hpid, hfull⟩, hc⟩
    refine ⟨stdout, hstdout, ?_⟩
    simp only [hsplit, hpid, Script.result_ofExcept, fromPid_ok_iff]
    exact ⟨hfull.symm, hc⟩

lemma resolveContainerd_ok_iff {id : Text} {c : ContainerTarget} :
    (resolveContainerd debug m id).result m.output = .ok c ↔
      c.fullId = id ∧ ∃ pid, CrictlReports m id pid ∧ c.Grounded m pid := by
  unfold resolveContainerd CrictlReports
  rw [query_ok_iff]
  constructor
  · rintro ⟨stdout, hstdout, hnext⟩
    cases hpid : parseU32 (trim stdout) with
    | none => simp [hpid] at hnext
    | some pid =>
      simp only [hpid, Script.result_ofExcept, fromPid_ok_iff] at hnext
      exact ⟨hnext.1, pid, ⟨stdout, hstdout, hpid⟩, hnext.2⟩
  · rintro ⟨hid, pid, ⟨stdout, hstdout, hpid⟩, hc⟩
    refine ⟨stdout, hstdout, ?_⟩
    simp only [hpid, Script.result_ofExcept, fromPid_ok_iff]
    exact ⟨hid, hc⟩

/-- What happens once `kubectl` has named a node and a container. -/
lemma checkSameNode_ok_iff {nodeName : Text} :
    checkSameNode m nodeName = .ok () ↔ eqIgnoreAsciiCase (hostname m) nodeName = true := by
  unfold checkSameNode
  by_cases h : eqIgnoreAsciiCase (hostname m) nodeName = true
  · rw [if_pos h]
    exact ⟨fun _ => h, fun _ => rfl⟩
  · rw [if_neg h]
    exact ⟨fun herror => (nomatch herror), fun heq => absurd heq h⟩

lemma ne_nil_of_splitOnceAt {ref : Text} {parts : Text × Text}
    (h : splitOnceAt "://".toList ref = some parts) : ref.isEmpty = false := by
  cases ref with
  | nil =>
    have hnil : splitOnceAt "://".toList [] = none := by decide
    exact absurd (hnil.symm.trans h) (Option.some_ne_none parts).symm
  | cons c ref => rfl

variable (debug m) in
/-- How a pod is resolved whose node and container `kubectl` has named, if it is on this node and
of a runtime that is supported. -/
inductive Continues (nodeName ref : Text) : Resolution ContainerTarget → Prop
  | docker {id : Text} (hnode : eqIgnoreAsciiCase (hostname m) nodeName = true)
      (href : splitOnceAt "://".toList ref = some ("docker".toList, id)) :
      Continues nodeName ref (resolveContainer debug m id)
  | containerd {id : Text} (hnode : eqIgnoreAsciiCase (hostname m) nodeName = true)
      (href : splitOnceAt "://".toList ref = some ("containerd".toList, id)) :
      Continues nodeName ref (resolveContainerd debug m id)

lemma docker_ne_containerd : "docker".toList ≠ "containerd".toList := by decide

lemma Continues.unique {nodeName ref : Text} {next next' : Resolution ContainerTarget}
    (h : Continues debug m nodeName ref next) (h' : Continues debug m nodeName ref next') :
    next = next' := by
  cases h with
  | docker hnode href =>
    cases h' with
    | docker hnode' href' =>
      obtain ⟨-, rfl⟩ := Prod.mk.inj (Option.some.inj (href.symm.trans href'))
      rfl
    | containerd hnode' href' =>
      exact absurd (Prod.mk.inj (Option.some.inj (href.symm.trans href'))).1 docker_ne_containerd
  | containerd hnode href =>
    cases h' with
    | docker hnode' href' =>
      exact absurd (Prod.mk.inj (Option.some.inj (href'.symm.trans href))).1 docker_ne_containerd
    | containerd hnode' href' =>
      obtain ⟨-, rfl⟩ := Prod.mk.inj (Option.some.inj (href.symm.trans href'))
      rfl

variable (debug) in
/-- Once `kubectl` has named a node and a container, the container is resolved, or nothing is
asked any more. -/
lemma resolvePod_of_answers {pod ns nodeName ref stdout : Text}
    (hstdout : m.Answers (kubectlGetPod pod ns) stdout)
    (hsplit : splitOnce '|' (trim stdout) = some (nodeName, ref)) :
    (∃ next, Continues debug m nodeName ref next ∧
      (resolvePod debug m pod ns).result m.output = next.result m.output ∧
      (resolvePod debug m pod ns).log m.output = kubectlGetPod pod ns :: next.log m.output) ∨
    (∀ next, ¬ Continues debug m nodeName ref next) ∧
      (∃ e, (resolvePod debug m pod ns).result m.output = .error e) ∧
      (resolvePod debug m pod ns).log m.output = [kubectlGetPod pod ns] := by
  obtain ⟨output, houtput, hsuccess, rfl⟩ := hstdout
  unfold resolvePod query
  rw [Script.result_ask, Script.log_ask, houtput]
  simp only [hsuccess, hsplit, Bool.not_true, Bool.false_eq_true, if_false]
  by_cases hempty : ref.isEmpty = true
  · rw [if_pos hempty]
    refine Or.inr ⟨fun next h => ?_, ⟨_, rfl⟩, rfl⟩
    cases h with
    | docker _ href | containerd _ href =>
      exact absurd (hempty.symm.trans (ne_nil_of_splitOnceAt href)) (Bool.false_ne_true).symm
  · rw [if_neg hempty]
    cases hnode : checkSameNode m nodeName with
    | error e =>
      refine Or.inr ⟨fun next h => ?_, ⟨_, rfl⟩, rfl⟩
      cases h with
      | docker hsame _ | containerd hsame _ =>
        rw [checkSameNode_ok_iff.mpr hsame] at hnode
        exact nomatch hnode
    | ok _ =>
      have hsame := checkSameNode_ok_iff.mp hnode
      dsimp only
      cases hruntime : splitOnceAt "://".toList ref with
      | none =>
        refine Or.inr ⟨fun next h => ?_, ⟨_, rfl⟩, rfl⟩
        cases h with
        | docker _ href | containerd _ href => exact nomatch hruntime.symm.trans href
      | some parts =>
        obtain ⟨runtime, id⟩ := parts
        dsimp only
        by_cases hdocker : runtime = "docker".toList
        · rw [if_pos hdocker]
          exact Or.inl ⟨_, .docker hsame (hdocker ▸ hruntime), rfl, rfl⟩
        · rw [if_neg hdocker]
          by_cases hcontainerd : runtime = "containerd".toList
          · rw [if_pos hcontainerd]
            exact Or.inl ⟨_, .containerd hsame (hcontainerd ▸ hruntime), rfl, rfl⟩
          · rw [if_neg hcontainerd]
            refine Or.inr ⟨fun next h => ?_, ⟨_, rfl⟩, rfl⟩
            cases h with
            | docker _ href =>
              exact hdocker (Prod.mk.inj (Option.some.inj (hruntime.symm.trans href))).1
            | containerd _ href =>
              exact hcontainerd (Prod.mk.inj (Option.some.inj (hruntime.symm.trans href))).1

variable (debug) in
/-- If `kubectl` names none, nothing is asked any more. -/
lemma resolvePod_of_silence {pod ns : Text}
    (h : ∀ nodeName ref, ¬ KubectlReports m pod ns nodeName ref) :
    (∃ e, (resolvePod debug m pod ns).result m.output = .error e) ∧
      (resolvePod debug m pod ns).log m.output = [kubectlGetPod pod ns] := by
  unfold resolvePod query
  rw [Script.result_ask, Script.log_ask]
  cases hanswer : m.output (kubectlGetPod pod ns) with
  | none => exact ⟨⟨_, rfl⟩, rfl⟩
  | some output =>
    cases hsuccess : output.success with
    | false =>
      simp only [hsuccess, Bool.not_false, if_true]
      exact ⟨⟨_, rfl⟩, rfl⟩
    | true =>
      cases hsplit : splitOnce '|' (trim output.stdout) with
      | none =>
        simp only [hsuccess, hsplit, Bool.not_true, Bool.false_eq_true, if_false]
        exact ⟨⟨_, rfl⟩, rfl⟩
      | some parts => exact absurd ⟨_, ⟨output, hanswer, hsuccess, rfl⟩, hsplit⟩ (h parts.1 parts.2)

lemma resolvePod_ok_iff {pod ns : Text} {c : ContainerTarget} :
    (resolvePod debug m pod ns).result m.output = .ok c ↔
      ∃ nodeName ref next, KubectlReports m pod ns nodeName ref ∧
        Continues debug m nodeName ref next ∧ next.result m.output = .ok c := by
  constructor
  · intro h
    obtain ⟨stdout, hstdout, hnext⟩ := query_ok_iff.mp h
    cases hsplit : splitOnce '|' (trim stdout) with
    | none => simp [hsplit] at hnext
    | some parts =>
      obtain ⟨nodeName, ref⟩ := parts
      rcases resolvePod_of_answers debug hstdout hsplit with
        ⟨next, hcontinues, hresult, -⟩ | ⟨-, ⟨e, herror⟩, -⟩
      · exact ⟨nodeName, ref, next, ⟨stdout, hstdout, hsplit⟩, hcontinues, hresult ▸ h⟩
      · exact nomatch herror.symm.trans h
  · rintro ⟨nodeName, ref, next, ⟨stdout, hstdout, hsplit⟩, hcontinues, hok⟩
    rcases resolvePod_of_answers debug hstdout hsplit with
      ⟨next', hcontinues', hresult, -⟩ | ⟨hnone, -⟩
    · rw [hresult, hcontinues'.unique hcontinues, hok]
    · exact absurd hcontinues (hnone next)

lemma map_ok_iff {ε α β : Type} {f : α → β} {r : Except ε α} {b : β} :
    r.map f = .ok b ↔ ∃ a, r = .ok a ∧ f a = b := by
  cases r <;> simp [Except.map]

lemma resolveTarget_ok_iff {arg : TargetArg} {target : ResolvedTarget} :
    (resolveTarget debug m arg).result m.output = .ok target ↔ arg.Names m target := by
  cases arg with
  | Pid pid =>
    rw [resolveTarget, Script.result_ofExcept, map_ok_iff, checkTargetExists]
    constructor
    · rintro ⟨_, hexists, rfl⟩
      split at hexists
      · rename_i h
        exact .pid h
      · exact nomatch hexists
    · rintro ⟨h⟩
      exact ⟨(), if_pos h, rfl⟩
  | Container idOrName =>
    rw [resolveTarget, Script.result_map, map_ok_iff]
    constructor
    · rintro ⟨c, hok, rfl⟩
      obtain ⟨pid, hreports, hc⟩ := resolveContainer_ok_iff.mp hok
      exact .container hreports hc
    · intro h
      cases h with
      | container hreports hc => exact ⟨_, resolveContainer_ok_iff.mpr ⟨_, hreports, hc⟩, rfl⟩
  | Pod name ns =>
    rw [resolveTarget, Script.result_map, map_ok_iff]
    constructor
    · rintro ⟨c, hok, rfl⟩
      obtain ⟨nodeName, ref, next, hpod, hcontinues, hnext⟩ := resolvePod_ok_iff.mp hok
      cases hcontinues with
      | docker hnode href =>
        obtain ⟨pid, hreports, hc⟩ := resolveContainer_ok_iff.mp hnext
        exact .dockerPod hpod hnode href hreports hc
      | containerd hnode href =>
        obtain ⟨rfl, pid, hreports, hc⟩ := resolveContainerd_ok_iff.mp hnext
        exact .containerdPod hpod hnode href hreports hc
    · intro h
      cases h with
      | dockerPod hpod hnode href hreports hc =>
        exact ⟨_, resolvePod_ok_iff.mpr ⟨_, _, _, hpod, .docker hnode href,
          resolveContainer_ok_iff.mpr ⟨_, hreports, hc⟩⟩, rfl⟩
      | containerdPod hpod hnode href hreports hc =>
        exact ⟨_, resolvePod_ok_iff.mpr ⟨_, _, _, hpod, .containerd hnode href,
          resolveContainerd_ok_iff.mpr ⟨rfl, _, hreports, hc⟩⟩, rfl⟩

/-- **Resolution finds what the commands name.**  Whatever they answer, it succeeds exactly with
a target that the argument names: the process exists; or the container runtime reports a process,
and the target is the cgroup of that process; and a pod is resolved on its own node only. -/
theorem resolves_iff (debug : Text → Text) (m : Machine) (arg : TargetArg)
    (target : ResolvedTarget) :
    (resolveTarget debug m arg).result m.output = .ok target ↔ arg.Names m target :=
  resolveTarget_ok_iff

lemma log_resolveContainer (idOrName : Text) :
    (resolveContainer debug m idOrName).log m.output = [dockerInspect m idOrName] := by
  rcases log_query with hlog | ⟨stdout, -, hlog⟩
  · exact hlog
  · rw [resolveContainer, hlog]
    cases splitOnce '|' (trim stdout) with
    | none => rfl
    | some parts =>
      dsimp only
      cases parseU32 parts.1 with
      | none => rfl
      | some pid => rw [Script.log_ofExcept]

lemma log_resolveContainerd (id : Text) :
    (resolveContainerd debug m id).log m.output = [crictlInspect id] := by
  rcases log_query with hlog | ⟨stdout, -, hlog⟩
  · exact hlog
  · rw [resolveContainerd, hlog]
    cases parseU32 (trim stdout) with
    | none => rfl
    | some pid => rw [Script.log_ofExcept]

variable (m) in
/-- `kubectl` names this node, and a container of the given runtime and id. -/
def PlacedHere (name ns runtime id : Text) : Prop :=
  ∃ nodeName ref, KubectlReports m name ns nodeName ref ∧
    eqIgnoreAsciiCase (hostname m) nodeName = true ∧
    splitOnceAt "://".toList ref = some (runtime, id)

/-- The commands of a pod whose resolution goes on with `next`. -/
lemma log_resolvePod_of_continues {name ns nodeName ref : Text}
    {next : Resolution ContainerTarget} (hpod : KubectlReports m name ns nodeName ref)
    (hnext : Continues debug m nodeName ref next) :
    (resolvePod debug m name ns).log m.output = kubectlGetPod name ns :: next.log m.output := by
  obtain ⟨stdout, hstdout, hsplit⟩ := hpod
  rcases resolvePod_of_answers debug hstdout hsplit with
    ⟨next', hnext', -, hlog⟩ | ⟨hnone, -⟩
  · rw [hlog, hnext'.unique hnext]
  · exact absurd hnext (hnone next)

/-- A pod that is not placed here, with a supported runtime, is not resolved. -/
lemma resolvePod_of_not_placedHere {name ns : Text}
    (h : ∀ id, ¬ PlacedHere m name ns "docker".toList id ∧
      ¬ PlacedHere m name ns "containerd".toList id) :
    (∃ e, (resolvePod debug m name ns).result m.output = .error e) ∧
      (resolvePod debug m name ns).log m.output = [kubectlGetPod name ns] := by
  by_cases hreports : ∃ nodeName ref, KubectlReports m name ns nodeName ref
  · obtain ⟨nodeName, ref, hpod⟩ := hreports
    have ⟨stdout, hstdout, hsplit⟩ := hpod
    rcases resolvePod_of_answers debug hstdout hsplit with ⟨next, hnext, -⟩ | ⟨-, hrefused⟩
    · cases hnext with
      | docker hnode href => exact absurd ⟨nodeName, ref, hpod, hnode, href⟩ (h _).1
      | containerd hnode href => exact absurd ⟨nodeName, ref, hpod, hnode, href⟩ (h _).2
    · exact hrefused
  · exact resolvePod_of_silence debug fun nodeName ref hpod => hreports ⟨nodeName, ref, hpod⟩

/-- **Pods elsewhere are refused.**  Resolving a pod runs `kubectl get`.  If that names this node
and a supported runtime, the one command after it asks this runtime, about the id that `kubectl`
has named.  Otherwise nothing else is run, and there is no target. -/
theorem pods_elsewhere_are_refused (debug : Text → Text) (m : Machine) (name ns : Text) :
    let s := resolveTarget debug m (.Pod name ns)
    (∀ id, PlacedHere m name ns "docker".toList id →
      s.log m.output = [kubectlGetPod name ns, dockerInspect m id]) ∧
    (∀ id, PlacedHere m name ns "containerd".toList id →
      s.log m.output = [kubectlGetPod name ns, crictlInspect id]) ∧
    ((∀ id, ¬ PlacedHere m name ns "docker".toList id ∧
        ¬ PlacedHere m name ns "containerd".toList id) →
      s.log m.output = [kubectlGetPod name ns] ∧ ∃ e, s.result m.output = .error e) := by
  intro s
  have hlog : s.log m.output = (resolvePod debug m name ns).log m.output := Script.log_map ..
  rw [hlog]
  refine ⟨?_, ?_, fun hnone => ?_⟩
  · rintro id ⟨nodeName, ref, hpod, hnode, href⟩
    rw [log_resolvePod_of_continues hpod (.docker hnode href), log_resolveContainer]
  · rintro id ⟨nodeName, ref, hpod, hnode, href⟩
    rw [log_resolvePod_of_continues hpod (.containerd hnode href), log_resolveContainerd]
  · obtain ⟨⟨e, he⟩, honly⟩ := resolvePod_of_not_placedHere hnone
    refine ⟨honly, e, ?_⟩
    show (resolveTarget debug m (.Pod name ns)).result m.output = _
    rw [resolveTarget, Script.result_map, he]
    rfl

end Resolve

/-! ## From the argument to the filter -/

/-- The entries of `/proc/<pid>/cgroup`: one of the unified hierarchy, and maybe others before. -/
def cgroupEntries (others : List Text) (c : Cgroup) : Text :=
  (others.flatMap fun l => l ++ ['\n']) ++ ("0::".toList ++ cgroupPath c ++ ['\n'])

/-- The machine shows the cgroups of a host: the unified hierarchy is mounted, each live process
has its entry in it, and the inode of a cgroup is its id.  No line is broken by a name. -/
structure Machine.Shows (m : Machine) (host : Host) : Prop where
  unified : m.pathExists (CGROUP_ROOT ++ "/cgroup.controllers".toList) = true
  inode : ∀ c ∈ host.cgroups, m.inode (CGROUP_ROOT ++ cgroupPath c) = some (host.id c)
  names : ∀ c ∈ host.cgroups, ∀ name ∈ c, '\n' ∉ name ∧ '\r' ∉ name
  entries : ∀ pid c, host.placement pid = some c → ∃ others,
    m.files (cgroupFile pid) = some (cgroupEntries others c) ∧
      ∀ l ∈ others, "0::".toList.isPrefixOf l = false ∧ '\n' ∉ l ∧ '\r' ∉ l

/-- What the commands print about an argument: process `pid` of container `fullId`, by the
container runtime itself, or for a pod of this node. -/
inductive TargetArg.Printed (m : Machine) (pid : UInt32) (fullId : Text) : TargetArg → Prop
  | container {idOrName : Text}
      (h : m.Answers (dockerInspect m idOrName) (decimal pid.toNat ++ '|' :: fullId ++ ['\n'])) :
      Printed m pid fullId (.Container idOrName)
  | dockerPod {name ns nodeName : Text} (hword : IsWord nodeName) (hbar : '|' ∉ nodeName)
      (hpod : m.Answers (kubectlGetPod name ns) (nodeName ++ '|' :: ("docker://".toList ++ fullId)))
      (hnode : eqIgnoreAsciiCase (hostname m) nodeName = true)
      (h : m.Answers (dockerInspect m fullId) (decimal pid.toNat ++ '|' :: fullId ++ ['\n'])) :
      Printed m pid fullId (.Pod name ns)
  | containerdPod {name ns nodeName : Text} (hword : IsWord nodeName) (hbar : '|' ∉ nodeName)
      (hpod : m.Answers (kubectlGetPod name ns)
        (nodeName ++ '|' :: ("containerd://".toList ++ fullId)))
      (hnode : eqIgnoreAsciiCase (hostname m) nodeName = true)
      (h : m.Answers (crictlInspect fullId) (decimal pid.toNat ++ ['\n'])) :
      Printed m pid fullId (.Pod name ns)

section Grounded
variable {m : Machine} {host : Host}

lemma not_mem_cgroupPath {c : Cgroup} {ch : Char} (hslash : ch ≠ '/') (h : ∀ name ∈ c, ch ∉ name) :
    ch ∉ cgroupPath c := by
  unfold cgroupPath
  split
  · simpa using hslash
  · intro hmem
    obtain ⟨name, hname, hch⟩ := List.mem_flatMap.mp hmem
    rcases List.mem_cons.mp hch with heq | hch
    · exact hslash heq
    · exact h name hname hch

/-- The entry of the unified hierarchy is found among the others. -/
lemma find?_lines_cgroupEntries {others : List Text} {c : Cgroup}
    (hothers : ∀ l ∈ others, "0::".toList.isPrefixOf l = false ∧ '\n' ∉ l ∧ '\r' ∉ l)
    (hnames : ∀ name ∈ c, '\n' ∉ name ∧ '\r' ∉ name) :
    (lines (cgroupEntries others c)).find? ("0::".toList.isPrefixOf ·) =
      some ("0::".toList ++ cgroupPath c) := by
  induction others with
  | nil =>
    have hline : ∀ ch ∈ "0::".toList ++ cgroupPath c, ch ≠ '\n' ∧ ch ≠ '\r' := by
      have hlf := not_mem_cgroupPath (by decide) fun name hname => (hnames name hname).1
      have hcr := not_mem_cgroupPath (by decide) fun name hname => (hnames name hname).2
      have hstart : ∀ ch ∈ "0::".toList, ch ≠ '\n' ∧ ch ≠ '\r' :=
        List.all_iff_forall_prop.mp (by decide)
      intro ch hch
      rcases List.mem_append.mp hch with hch | hch
      · exact hstart ch hch
      · exact ⟨fun heq => hlf (heq ▸ hch), fun heq => hcr (heq ▸ hch)⟩
    have hfound : "0::".toList.isPrefixOf ("0::".toList ++ cgroupPath c) = true :=
      List.isPrefixOf_iff_prefix.mpr (List.prefix_append _ _)
    rw [cgroupEntries, List.flatMap_nil, List.nil_append, lines_append_cons hline]
    rw [List.find?_cons, hfound]
  | cons l others ih =>
    obtain ⟨hl, hlf, hcr⟩ := hothers l List.mem_cons_self
    have hline : ∀ ch ∈ l, ch ≠ '\n' ∧ ch ≠ '\r' := fun ch hch =>
      ⟨fun heq => hlf (heq ▸ hch), fun heq => hcr (heq ▸ hch)⟩
    have hsplit : cgroupEntries (l :: others) c = l ++ '\n' :: cgroupEntries others c := by
      simp [cgroupEntries]
    rw [hsplit, lines_append_cons hline, List.find?_cons, hl]
    exact ih fun l' hl' => hothers l' (List.mem_cons_of_mem l hl')

/-- A live process of a container grounds the target. -/
lemma grounded_of_shows (hm : m.Shows host) {pid : UInt32} {c : Cgroup} (hpid : pid ≠ 0)
    (hplaced : host.placement pid = some c) (fullId : Text) :
    ContainerTarget.Grounded m
      { cgroupId := host.id c, fullId, cgroupPath := cgroupPath c } pid where
  running := hpid
  unified := hm.unified
  listed := by
    obtain ⟨others, hfile, hothers⟩ := hm.entries pid c hplaced
    exact ⟨_, hfile, find?_lines_cgroupEntries hothers (hm.names c (host.placed pid c hplaced))⟩
  inode := hm.inode c (host.placed pid c hplaced)

lemma parseU32_decimal (pid : UInt32) : parseU32 (decimal pid.toNat) = some pid := by
  rw [parseU32, decimal, parseUnsigned_toDigits pid.toNat_lt]
  simp

lemma not_whitespace_decimal (n : ℕ) : ∀ ch ∈ decimal n, isWhitespace ch = false := fun _ hch =>
  (of_isDigit (isDigit_of_mem_decimal hch)).1

lemma whitespace_newline : ∀ ch ∈ ['\n'], isWhitespace ch = true :=
  List.all_eq_true.mp (by decide)

/-- What Docker prints is what it reports. -/
lemma dockerReports_of_answers {idOrName fullId : Text} {pid : UInt32} (hfull : IsWord fullId)
    (h : m.Answers (dockerInspect m idOrName) (decimal pid.toNat ++ '|' :: fullId ++ ['\n'])) :
    DockerReports m idOrName pid fullId := by
  have hword : ∀ ch ∈ decimal pid.toNat ++ '|' :: fullId, isWhitespace ch = false := by
    intro ch hch
    rcases List.mem_append.mp hch with hch | hch
    · exact not_whitespace_decimal _ ch hch
    · rcases List.mem_cons.mp hch with rfl | hch
      · decide
      · exact hfull.2 ch hch
  have hbar : '|' ∉ decimal pid.toNat := fun hmem =>
    absurd (isDigit_of_mem_decimal hmem) (by decide)
  refine ⟨_, decimal pid.toNat, fullId, h, ?_, parseU32_decimal pid, ?_⟩
  · rw [trim_append hword whitespace_newline, splitOnce_append_cons hbar]
  · exact trim_of_not_whitespace hfull.2

/-- What Kubernetes prints is what it reports. -/
lemma kubectlReports_of_answers {name ns nodeName ref : Text} (hword : IsWord nodeName)
    (hbar : '|' ∉ nodeName) (href : ∀ ch ∈ ref, isWhitespace ch = false)
    (h : m.Answers (kubectlGetPod name ns) (nodeName ++ '|' :: ref)) :
    KubectlReports m name ns nodeName ref := by
  have hall : ∀ ch ∈ nodeName ++ '|' :: ref, isWhitespace ch = false := by
    intro ch hch
    rcases List.mem_append.mp hch with hch | hch
    · exact hword.2 ch hch
    · rcases List.mem_cons.mp hch with rfl | hch
      · decide
      · exact href ch hch
  refine ⟨_, h, ?_⟩
  rw [trim_of_not_whitespace hall, splitOnce_append_cons hbar]

/-- A container reference, with the scheme of its runtime. -/
lemma splitOnceAt_ref {runtime : Text} (h : ':' ∉ runtime) (id : Text) :
    splitOnceAt "://".toList (runtime ++ "://".toList ++ id) = some (runtime, id) :=
  splitOnceAt_append h id

lemma not_whitespace_append {s t : Text} (hs : ∀ ch ∈ s, isWhitespace ch = false)
    (ht : ∀ ch ∈ t, isWhitespace ch = false) : ∀ ch ∈ s ++ t, isWhitespace ch = false := by
  intro ch hch
  rcases List.mem_append.mp hch with hch | hch
  · exact hs ch hch
  · exact ht ch hch

/-- What is printed about an argument names a target on that process. -/
lemma exists_names_of_printed {arg : TargetArg} {pid : UInt32} {fullId : Text} {c : ContainerTarget}
    (hfull : IsWord fullId) (h : arg.Printed m pid fullId) (hid : c.fullId = fullId)
    (hc : c.Grounded m pid) :
    ∃ target, arg.Names m target ∧ target.memoryTarget = .Cgroup c.cgroupPath ∧
      Kernel.load target.filter = Kernel.load (.Container c.cgroupId) := by
  subst hid
  cases h with
  | container h => exact ⟨_, .container (dockerReports_of_answers hfull h) hc, rfl, rfl⟩
  | dockerPod hword hbar hpod hnode h =>
    have hscheme : ∀ ch ∈ "docker://".toList, isWhitespace ch = false :=
      List.all_iff_forall_prop.mp (by decide)
    have hcolon : ':' ∉ "docker".toList := by decide
    have href := splitOnceAt_ref hcolon c.fullId
    exact ⟨_, .dockerPod (kubectlReports_of_answers hword hbar
      (not_whitespace_append hscheme hfull.2) hpod) hnode href (dockerReports_of_answers hfull h) hc,
      rfl, rfl⟩
  | containerdPod hword hbar hpod hnode h =>
    have hscheme : ∀ ch ∈ "containerd://".toList, isWhitespace ch = false :=
      List.all_iff_forall_prop.mp (by decide)
    have hcolon : ':' ∉ "containerd".toList := by decide
    have href := splitOnceAt_ref hcolon c.fullId
    have hpid : CrictlReports m c.fullId pid := by
      refine ⟨_, h, ?_⟩
      rw [trim_append (not_whitespace_decimal _) whitespace_newline, parseU32_decimal]
    exact ⟨_, .containerdPod (kubectlReports_of_answers hword hbar
      (not_whitespace_append hscheme hfull.2) hpod) hnode href hpid hc, rfl, rfl⟩

end Grounded

/-- **A resolved target traces its cgroup.**  If the commands print a live process of a container,
then the argument is resolved, be it a container or a pod of Docker or containerd; and from then
on, whatever the programs have done, they accept exactly the processes of that process's cgroup,
which is also where memory is read. -/
theorem resolved_target_traces_its_cgroup (debug : Text → Text) {m : Machine} {host : Host}
    (hm : m.Shows host) {arg : TargetArg} {pid : UInt32} {fullId : Text} {c : Cgroup}
    (hpid : pid ≠ 0) (hplaced : host.placement pid = some c) (hfull : IsWord fullId)
    (hprinted : arg.Printed m pid fullId) :
    ∃ target, (resolveTarget debug m arg).result m.output = .ok target ∧
      target.memoryTarget = .Cgroup (cgroupPath c) ∧
      ∀ (l : List Firing) (h : Helpers) pid' c', host.placement pid' = some c' →
        h.currentCgroupId = host.id c' →
        (((Kernel.load target.filter).run l).matchesTarget h pid' = true ↔ c' = c) := by
  obtain ⟨target, hnames, hmemory, hload⟩ := exists_names_of_printed hfull hprinted rfl
    (grounded_of_shows hm hpid hplaced fullId)
  refine ⟨target, resolveTarget_ok_iff.mpr hnames, hmemory, ?_⟩
  intro l h pid' c' hplaced' hid
  rw [hload]
  exact accepts_iff (host.placed pid c hplaced) l hplaced' hid

/-! ## An example -/

/-- The host of the nested container, without the Docker daemon. -/
def quietMachine : Machine where
  files path :=
    if path = cgroupFile 1 then some (cgroupEntries [] docker)
    else if path = cgroupFile 2 then some (cgroupEntries ["1:name=systemd:/".toList] inner)
    else none
  pathExists path := path = CGROUP_ROOT ++ "/cgroup.controllers".toList
  inode path := (inner.inits.find? fun c => CGROUP_ROOT ++ cgroupPath c = path).map nested.id
  varSet _ := false
  var _ := none
  output _ := none
  effectiveUid := 0
  hasCap _ := false

/-- Docker runs one container, `web`, as process 1. -/
def dockerMachine : Machine :=
  { quietMachine with
    output := fun command =>
      if command = dockerInspect quietMachine "web".toList then
        some { success := true, stdout := "1|4f66ad9a0b2e\n".toList, stderr := [] }
      else none }

lemma dockerMachine_shows : dockerMachine.Shows nested where
  unified := by decide +kernel
  inode c hc := by
    have hall : ∀ c ∈ inner.inits,
        dockerMachine.inode (CGROUP_ROOT ++ cgroupPath c) = some (nested.id c) := by
      decide +kernel
    exact hall c ((List.mem_inits c inner).mpr hc)
  names c hc := by
    have hall : ∀ c ∈ inner.inits, ∀ name ∈ c, '\n' ∉ name ∧ '\r' ∉ name := by decide +kernel
    exact hall c ((List.mem_inits c inner).mpr hc)
  entries pid c hplaced := by
    have hplaced : (if pid = 1 then some docker else if pid = 2 then some inner else none) =
        some c := hplaced
    split at hplaced
    · rename_i h
      obtain rfl := Option.some.inj hplaced
      exact ⟨[], by rw [h]; decide +kernel, fun l hl => absurd hl List.not_mem_nil⟩
    · split at hplaced
      · rename_i h
        obtain rfl := Option.some.inj hplaced
        exact ⟨["1:name=systemd:/".toList], by rw [h]; decide +kernel, by decide +kernel⟩
      · exact nomatch hplaced

theorem resolved_target_traces_its_cgroup_web :
    ∃ target, (resolveTarget id dockerMachine (.Container "web".toList)).result
        dockerMachine.output = .ok target ∧
      target.memoryTarget = .Cgroup "/docker".toList ∧
      ∀ (l : List Firing) (h : Helpers) pid' c', nested.placement pid' = some c' →
        h.currentCgroupId = nested.id c' →
        (((Kernel.load target.filter).run l).matchesTarget h pid' = true ↔ c' = docker) := by
  have hprinted : (TargetArg.Container "web".toList).Printed dockerMachine 1
      "4f66ad9a0b2e".toList :=
    .container ⟨⟨true, "1|4f66ad9a0b2e\n".toList, []⟩, by decide +kernel, rfl,
      by decide +kernel⟩
  have hword : IsWord "4f66ad9a0b2e".toList :=
    ⟨by decide, List.all_iff_forall_prop.mp (by decide)⟩
  exact resolved_target_traces_its_cgroup id dockerMachine_shows (by decide) rfl hword hprinted

end Peekbeam
