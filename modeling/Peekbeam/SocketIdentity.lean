import Peekbeam.SocketFirings

/-!
# The identity of a connection

The two socket programs read the same connection out of records of different formats.  The
formats are taken here from their documentation (`inetSockSetStateFormat`,
`tcpRetransmitSkbFormat`), as tables of fields with offsets and sizes; the offsets the programs
read at are those of `Kernel/Sockets.lean`.  A record lays out a `SocketIdentity` when it has the
bytes of the identity at the documented offsets, whatever its other bytes are (`LaidOut`).

`socket_decoders_agree` — the keys userspace derives from two records, of the same program or of
both, are equal exactly when the identities name the same connection.  `laidOut_layOut` shows that
every identity can be laid out around any other bytes.
-/

namespace Peekbeam

attribute [local irreducible] TracePointContext.field

/-! ## The documented formats -/

/-- A field of a socket tracepoint record. -/
inductive SockField
  | skbaddr | skaddr | oldstate | newstate | state | sport | dport | family | protocol
  | saddr | daddr | saddrV6 | daddrV6
  deriving DecidableEq

/-- The fields of a record with their offsets and sizes, in order. -/
abbrev RecordFormat := List (SockField × ℕ × ℕ)

/-- `sock:inet_sock_set_state`. -/
def inetSockSetStateFormat : RecordFormat :=
  [(.skaddr, 8, 8), (.oldstate, 16, 4), (.newstate, 20, 4), (.sport, 24, 2), (.dport, 26, 2),
    (.family, 28, 2), (.protocol, 30, 2), (.saddr, 32, 4), (.daddr, 36, 4), (.saddrV6, 40, 16),
    (.daddrV6, 56, 16)]

/-- `tcp:tcp_retransmit_skb`. -/
def tcpRetransmitSkbFormat : RecordFormat :=
  [(.skbaddr, 8, 8), (.skaddr, 16, 8), (.state, 24, 4), (.sport, 28, 2), (.dport, 30, 2),
    (.family, 32, 2), (.saddr, 34, 4), (.daddr, 38, 4), (.saddrV6, 42, 16), (.daddrV6, 58, 16)]

def NetEventKind.format : NetEventKind → RecordFormat
  | .StateChange => inetSockSetStateFormat
  | .Retransmit => tcpRetransmitSkbFormat

/-! ## Identities -/

/-- What a socket record says about which connection it concerns: both pairs of addresses are
always there. -/
structure SocketIdentity where
  family : UInt16
  sport : UInt16
  dport : UInt16
  saddr : Vector UInt8 4
  daddr : Vector UInt8 4
  saddrV6 : Vector UInt8 16
  daddrV6 : Vector UInt8 16

/-- The two bytes of a number, low byte first. -/
def leBytes (n : UInt16) : List UInt8 := [n.toUInt8, (n >>> 8).toUInt8]

namespace SocketIdentity

/-- The content of the fields that make up the identity. -/
def bytes (id : SocketIdentity) : SockField → Option (List UInt8)
  | .family => some (leBytes id.family)
  | .sport => some (leBytes id.sport)
  | .dport => some (leBytes id.dport)
  | .saddr => some id.saddr.toList
  | .daddr => some id.daddr.toList
  | .saddrV6 => some id.saddrV6.toList
  | .daddrV6 => some id.daddrV6.toList
  | _ => none

/-- Two identities name the same connection: the same family, ports and addresses of the
family. -/
def SameConnection (id id' : SocketIdentity) : Prop :=
  id.family = id'.family ∧ id.sport = id'.sport ∧ id.dport = id'.dport ∧
    if id.family = AF_INET6 then id.saddrV6 = id'.saddrV6 ∧ id.daddrV6 = id'.daddrV6
    else id.saddr = id'.saddr ∧ id.daddr = id'.daddr

lemma SameConnection.refl (id : SocketIdentity) : id.SameConnection id := by
  refine ⟨rfl, rfl, rfl, ?_⟩
  split <;> exact ⟨rfl, rfl⟩

/-- The key under which userspace is to file the connection. -/
def key (id : SocketIdentity) : ConnectionKey where
  family := id.family
  sport := id.sport
  dport := id.dport
  saddr := if id.family = AF_INET6 then id.saddrV6 else padV4 id.saddr
  daddr := if id.family = AF_INET6 then id.daddrV6 else padV4 id.daddr

end SocketIdentity

/-- Padding keeps addresses apart. -/
lemma padV4_inj {a b : Vector UInt8 4} : padV4 a = padV4 b ↔ a = b := by
  constructor
  · intro h
    apply Vector.ext
    intro i hi
    have := congrArg (fun v => v[i]) h
    simpa [padV4, List.getD, hi] using this
  · exact fun h => by rw [h]

lemma SocketIdentity.key_eq_key_iff {id id' : SocketIdentity} :
    id.key = id'.key ↔ id.SameConnection id' := by
  unfold SameConnection key
  rw [ConnectionKey.mk.injEq]
  constructor
  · rintro ⟨hfamily, hsport, hdport, hsaddr, hdaddr⟩
    refine ⟨hfamily, hsport, hdport, ?_⟩
    rw [← hfamily] at hsaddr hdaddr
    by_cases hv6 : id.family = AF_INET6
    · simp only [if_pos hv6] at hsaddr hdaddr ⊢
      exact ⟨hsaddr, hdaddr⟩
    · simp only [if_neg hv6, padV4_inj] at hsaddr hdaddr ⊢
      exact ⟨hsaddr, hdaddr⟩
  · rintro ⟨hfamily, hsport, hdport, haddr⟩
    refine ⟨hfamily, hsport, hdport, ?_⟩
    rw [← hfamily]
    by_cases hv6 : id.family = AF_INET6
    · simpa only [if_pos hv6] using haddr
    · simpa only [if_neg hv6, padV4_inj] using haddr

/-! ## Records that lay out an identity -/

/-- The `size` bytes from `off` on. -/
def bytesAt (record : ℕ → UInt8) (off size : ℕ) : List UInt8 :=
  (List.range size).map fun i => record (off + i)

/-- The record has the bytes of the identity where the format puts them. -/
def LaidOut (format : RecordFormat) (id : SocketIdentity) (record : ℕ → UInt8) : Prop :=
  ∀ field off size, (field, off, size) ∈ format →
    ∀ bytes, id.bytes field = some bytes → bytesAt record off size = bytes

section Fields
variable {ctx : TracePointContext} {off : ℕ}

/-- A port or family is read back from its two bytes. -/
lemma field_of_leBytes {n : UInt16} (h : bytesAt ctx.record off 2 = leBytes n) :
    ctx.field UInt16 off = n := by
  obtain ⟨hlow, hhigh⟩ : ctx.record off = n.toUInt8 ∧ ctx.record (off + 1) = (n >>> 8).toUInt8 := by
    simpa [bytesAt, leBytes, List.range_succ] using h
  have hbytes := toNat_two_bytes n
  have hlt := n.toNat_lt
  apply UInt16.toNat_inj.mp
  unfold TracePointContext.field
  simp only [RecordField.decode, leNat, Nat.add_zero, Nat.zero_add, hlow, hhigh, UInt16.toNat_ofNat']
  omega

/-- An address is read back byte by byte. -/
lemma field_of_bytes {n : ℕ} {v : Vector UInt8 n} (h : bytesAt ctx.record off n = v.toList) :
    ctx.field (Vector UInt8 n) off = v := by
  apply Vector.ext
  intro i hi
  have := congrArg (fun l => l[i]?) h
  unfold TracePointContext.field
  simpa [bytesAt, RecordField.decode, hi] using this

end Fields

/-- The fields a program reads an identity from, at the offsets it reads them. -/
def NetEventKind.fieldsRead (kind : NetEventKind) : RecordFormat :=
  [(.family, kind.layout.family, 2), (.sport, kind.layout.sport, 2),
    (.dport, kind.layout.dport, 2), (.saddr, kind.layout.saddr, 4),
    (.daddr, kind.layout.daddr, 4), (.saddrV6, kind.layout.saddrV6, 16),
    (.daddrV6, kind.layout.daddrV6, 16)]

/-- Every offset read is the documented one. -/
lemma fieldsRead_subset_format (kind : NetEventKind) : kind.fieldsRead ⊆ kind.format := by
  cases kind <;> decide

/-- **The decoders read what is laid out.** -/
lemma tuple_of_laidOut {f : NetFiring} {id : SocketIdentity}
    (h : LaidOut f.kind.format id f.ctx.record) : f.tuple = id.key := by
  obtain ⟨kind, helpers, ctx⟩ := f
  have hread : ∀ field off size bytes, (field, off, size) ∈ kind.fieldsRead →
      id.bytes field = some bytes → bytesAt ctx.record off size = bytes :=
    fun field off size bytes hmem => h field off size (fieldsRead_subset_format kind hmem) bytes
  have hfamily : ctx.field UInt16 kind.layout.family = id.family :=
    field_of_leBytes (hread .family _ _ _ (by simp [NetEventKind.fieldsRead]) rfl)
  have hsport : ctx.field UInt16 kind.layout.sport = id.sport :=
    field_of_leBytes (hread .sport _ _ _ (by simp [NetEventKind.fieldsRead]) rfl)
  have hdport : ctx.field UInt16 kind.layout.dport = id.dport :=
    field_of_leBytes (hread .dport _ _ _ (by simp [NetEventKind.fieldsRead]) rfl)
  have hsaddr : ctx.field (Vector UInt8 4) kind.layout.saddr = id.saddr :=
    field_of_bytes (hread .saddr _ _ _ (by simp [NetEventKind.fieldsRead]) rfl)
  have hdaddr : ctx.field (Vector UInt8 4) kind.layout.daddr = id.daddr :=
    field_of_bytes (hread .daddr _ _ _ (by simp [NetEventKind.fieldsRead]) rfl)
  have hsaddrV6 : ctx.field (Vector UInt8 16) kind.layout.saddrV6 = id.saddrV6 :=
    field_of_bytes (hread .saddrV6 _ _ _ (by simp [NetEventKind.fieldsRead]) rfl)
  have hdaddrV6 : ctx.field (Vector UInt8 16) kind.layout.daddrV6 = id.daddrV6 :=
    field_of_bytes (hread .daddrV6 _ _ _ (by simp [NetEventKind.fieldsRead]) rfl)
  simp only [NetFiring.tuple, NetFiring.event, NetEvent.key, SocketIdentity.key, hfamily, hsport,
    hdport, hsaddr, hdaddr, hsaddrV6, hdaddrV6]

/-! ## Laying out an identity -/

/-- The identity at the places the format gives it, the other bytes from elsewhere. -/
def layOut (format : RecordFormat) (id : SocketIdentity) (other : ℕ → UInt8) (off : ℕ) : UInt8 :=
  (format.findSome? fun (field, start, _) =>
    if start ≤ off then (id.bytes field).bind fun bytes => bytes[off - start]?
    else none).getD (other off)

/-- The number of bytes of a field of the identity. -/
def SockField.identitySize : SockField → Option ℕ
  | .family | .sport | .dport => some 2
  | .saddr | .daddr => some 4
  | .saddrV6 | .daddrV6 => some 16
  | _ => none

lemma SocketIdentity.length_bytes {id : SocketIdentity} {field : SockField} {bytes : List UInt8}
    (h : id.bytes field = some bytes) : field.identitySize = some bytes.length := by
  cases field <;> simp [SocketIdentity.bytes] at h <;>
    simp [← h, SockField.identitySize, leBytes]

/-- The contents have the documented sizes. -/
def FitsFormat (format : RecordFormat) (id : SocketIdentity) : Prop :=
  ∀ field off size, (field, off, size) ∈ format →
    ∀ bytes, id.bytes field = some bytes → bytes.length = size

/-- No field reaches into a later one. -/
def Disjoint (format : RecordFormat) : Prop :=
  format.Pairwise fun a b => a.2.1 + a.2.2 ≤ b.2.1

lemma layOut_at {format : RecordFormat} {id : SocketIdentity} (hfits : FitsFormat format id)
    (hdisjoint : Disjoint format) {field : SockField} {start size : ℕ}
    (hmem : (field, start, size) ∈ format) {bytes : List UInt8}
    (hbytes : id.bytes field = some bytes) (other : ℕ → UInt8) {i : ℕ} (hi : i < bytes.length) :
    layOut format id other (start + i) = bytes[i] := by
  unfold layOut
  induction format with
  | nil => simp at hmem
  | cons entry format ih =>
    obtain ⟨hhead, htail⟩ := List.pairwise_cons.mp hdisjoint
    rw [List.findSome?_cons]
    rcases List.mem_cons.mp hmem with rfl | hlater
    · simp [hbytes, hi]
    · -- an earlier field ends before this one starts
      obtain ⟨field', start', size'⟩ := entry
      have hends : start' + size' ≤ start := hhead (field, start, size) hlater
      have hnone : (if start' ≤ start + i then
          (id.bytes field').bind fun bytes => bytes[start + i - start']? else none) = none := by
        rw [if_pos (by omega)]
        cases hb : id.bytes field' with
        | none => rfl
        | some bytes' =>
          have hsize := hfits field' start' size' (by simp) bytes' hb
          exact List.getElem?_eq_none (by omega)
      simp only [hnone]
      exact ih (fun field off size h => hfits field off size (List.mem_cons_of_mem _ h)) htail hlater

/-- **Every identity can be laid out**, around any other bytes. -/
lemma laidOut_layOut (kind : NetEventKind) (id : SocketIdentity) (other : ℕ → UInt8) :
    LaidOut kind.format id (layOut kind.format id other) := by
  have hdisjoint : Disjoint kind.format := by
    unfold Disjoint
    cases kind <;> decide
  have hsizes : ∀ entry ∈ kind.format, ∀ n, entry.1.identitySize = some n → n = entry.2.2 := by
    cases kind <;> decide
  have hfits : FitsFormat kind.format id := fun field off size hmem bytes hbytes =>
    hsizes _ hmem _ (SocketIdentity.length_bytes hbytes)
  intro field off size hmem bytes hbytes
  have hsize := hfits field off size hmem bytes hbytes
  apply List.ext_getElem
  · simp [bytesAt, hsize]
  · intro i _ hi
    simpa [bytesAt] using layOut_at hfits hdisjoint hmem hbytes other hi

/-! ## The events of the programs -/

/-- In state `k` the firing outputs the record `event`. -/
def Outputs (k : Kernel) (f : NetFiring) (event : NetEvent) : Prop :=
  (k.fire f.toFiring).netEvents = k.netEvents ++ [RingBufItem.of event]

/-- The programs output what they read, if anything. -/
lemma netEvents_tryNetState (h : Helpers) (ctx : TracePointContext) (k : Kernel) :
    (tryNetState h ctx k).1.netEvents = k.netEvents ∨
      ∃ event, readNetEvent .StateChange h ctx = .ok event ∧
        (tryNetState h ctx k).1.netEvents = k.netEvents ++ [RingBufItem.of event] := by
  have hinsert : ∀ (b : Bool) (m : BpfHashMap UInt64 UInt8 1024),
      (if b then { k with trackedSocks := m } else k).netEvents = k.netEvents := fun b m => by
    cases b <;> rfl
  unfold tryNetState
  dsimp only
  split
  · exact Or.inl rfl
  · split
    · exact Or.inl rfl
    · cases hread : readNetEvent .StateChange h ctx with
      | error e => exact Or.inl (hinsert _ _)
      | ok event =>
        simp only [hinsert, RingBuf.output]
        cases h.netEventsError with
        | some e => exact Or.inl (hinsert _ _)
        | none => exact Or.inr ⟨event, rfl, by dsimp only; split <;> rfl⟩

lemma netEvents_tryNetRetransmit (h : Helpers) (ctx : TracePointContext) (k : Kernel) :
    (tryNetRetransmit h ctx k).1.netEvents = k.netEvents ∨
      ∃ event, readNetEvent .Retransmit h ctx = .ok event ∧
        (tryNetRetransmit h ctx k).1.netEvents = k.netEvents ++ [RingBufItem.of event] := by
  unfold tryNetRetransmit
  split
  · exact Or.inl rfl
  · split
    · exact Or.inl rfl
    · cases hread : readNetEvent .Retransmit h ctx with
      | error e => exact Or.inl rfl
      | ok event =>
        simp only [RingBuf.output]
        cases h.netEventsError with
        | some e => exact Or.inl rfl
        | none => exact Or.inr ⟨event, rfl, rfl⟩

/-- Whatever the state, a firing outputs the event its record says, or none. -/
lemma netEvents_fire (k : Kernel) (f : NetFiring) :
    (k.fire f.toFiring).netEvents = k.netEvents ∨ Outputs k f f.event := by
  have hevent : ∀ event, readNetEvent f.kind f.helpers f.ctx = .ok event → event = f.event :=
    fun event h => Except.ok.inj (h.symm.trans (NetFiring.readNetEvent_eq (by rw [h]; rfl)))
  unfold Outputs
  cases hk : f.kind with
  | StateChange =>
    have hfire : k.fire f.toFiring = (tryNetState f.helpers f.ctx k).1 := by
      simp only [Kernel.fire, Kernel.exec, NetFiring.toFiring, hk, Prod.map_fst, id]
    rw [hfire]
    refine (netEvents_tryNetState f.helpers f.ctx k).imp_right ?_
    rintro ⟨event, hread, hout⟩
    rwa [← hevent event (hk ▸ hread)]
  | Retransmit =>
    have hfire : k.fire f.toFiring = (tryNetRetransmit f.helpers f.ctx k).1 := by
      simp only [Kernel.fire, Kernel.exec, NetFiring.toFiring, hk, Prod.map_fst, id]
    rw [hfire]
    refine (netEvents_tryNetRetransmit f.helpers f.ctx k).imp_right ?_
    rintro ⟨event, hread, hout⟩
    rwa [← hevent event (hk ▸ hread)]

lemma eq_event_of_outputs {k : Kernel} {f : NetFiring} {event : NetEvent}
    (h : Outputs k f event) : event = f.event := by
  unfold Outputs at h
  rcases netEvents_fire k f with hnone | hsome
  · rw [hnone] at h
    simp at h
  · rw [Outputs, h] at hsome
    exact congrArg RingBufItem.record (List.singleton_inj.mp (List.append_cancel_left hsome))

/-- **The decoders agree on connections.**  Take the events two firings output, in any states of
the programs, from records that lay out two identities.  If the identities are equal the events
have the same key, also when they come from the two different programs; and they have the same
key exactly when the identities name the same connection. -/
theorem socket_decoders_agree {f g : NetFiring} {id id' : SocketIdentity} {k k' : Kernel}
    {event event' : NetEvent} (hf : LaidOut f.kind.format id f.ctx.record)
    (hg : LaidOut g.kind.format id' g.ctx.record) (hevent : Outputs k f event)
    (hevent' : Outputs k' g event') :
    (id = id' → event.key = event'.key) ∧ (event.key = event'.key ↔ id.SameConnection id') := by
  have hkey : event.key = id.key := by
    rw [eq_event_of_outputs hevent]
    exact tuple_of_laidOut hf
  have hkey' : event'.key = id'.key := by
    rw [eq_event_of_outputs hevent']
    exact tuple_of_laidOut hg
  rw [hkey, hkey']
  exact ⟨fun h => by rw [h], SocketIdentity.key_eq_key_iff⟩

/-- A firing in process 1 whose record lays out `id` among zeros. -/
def NetFiring.layingOut (kind : NetEventKind) (id : SocketIdentity) : NetFiring where
  kind
  helpers := .plain 0
  ctx := { tgid := 1, record := layOut kind.format id fun _ => 0, readError := fun _ => none }

/-- A connection over IPv4, its other addresses not zero. -/
def overV4 : SocketIdentity where
  family := 2
  sport := 40000
  dport := 443
  saddr := #v[10, 0, 0, 1]
  daddr := #v[10, 0, 0, 2]
  saddrV6 := .replicate 16 0xFF
  daddrV6 := .replicate 16 0xFF

/-- The connection is reported under one key, by the transition and by the retransmission after
it, and apart from the same ports over IPv6. -/
theorem socket_decoders_agree_overV4 :
    let f := NetFiring.layingOut .StateChange overV4
    let g := NetFiring.layingOut .Retransmit overV4
    let g' := NetFiring.layingOut .Retransmit { overV4 with family := AF_INET6 }
    let k := Kernel.load (.Pid 1)
    let k' := k.fire f.toFiring
    ∃ opened resent resentV6, Outputs k f opened ∧ Outputs k' g resent ∧ Outputs k' g' resentV6 ∧
      opened.key = resent.key ∧ opened.key ≠ resentV6.key := by
  intro f g g' k k'
  have hf : Outputs k f f.event := by
    unfold Outputs
    decide +kernel
  have hg : Outputs k' g g.event := by
    unfold Outputs
    decide +kernel
  have hg' : Outputs k' g' g'.event := by
    unfold Outputs
    decide +kernel
  refine ⟨f.event, g.event, g'.event, hf, hg, hg',
    (socket_decoders_agree (laidOut_layOut _ overV4 _) (laidOut_layOut _ overV4 _) hf hg).1 rfl,
    fun h => ?_⟩
  have hsame := (socket_decoders_agree (laidOut_layOut _ overV4 _)
    (laidOut_layOut _ { overV4 with family := AF_INET6 } _) hf hg').2.mp h
  exact absurd hsame.1 (by decide)

end Peekbeam
