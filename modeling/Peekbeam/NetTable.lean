import Peekbeam.Foundation.IpText
import Peekbeam.SocketIdentity
import Peekbeam.TargetScope

/-!
# Connections by their labels

The network panel and the summaries name a connection by its two endpoints: an address as Rust
prints it, a colon and the port.  `endpoint_eq_iff` reads an endpoint back from its text, also when
the address itself has colons.  `connections_labelled_apart` concludes that in a live trace two
rows with the same labels are of the same connection, up to families other than IPv6.
-/

namespace Peekbeam

/-! ## States -/

/-- `state_name`. -/
def stateName (state : UInt16) : Text :=
  (match state with
  | 1 => "ESTABLISHED"
  | 2 => "SYN_SENT"
  | 3 => "SYN_RECV"
  | 4 => "FIN_WAIT1"
  | 5 => "FIN_WAIT2"
  | 6 => "TIME_WAIT"
  | 7 => "CLOSE"
  | 8 => "CLOSE_WAIT"
  | 9 => "LAST_ACK"
  | 10 => "LISTEN"
  | 11 => "CLOSING"
  | 12 => "NEW_SYN_RECV"
  | _ => "UNKNOWN").toList

/-- `state_annotation`. -/
def stateAnnotation (state : UInt16) : Text :=
  (match state with
  | 1 => "connection open, actively usable"
  | 2 => "we sent SYN, waiting for the peer's reply"
  | 3 => "inbound SYN received, handshake in progress"
  | 4 | 5 => "we closed our side, waiting on the peer to close theirs"
  | 6 => "closed, waiting to make sure the peer saw it"
  | 7 => "connection fully closed"
  | 8 => "peer closed, waiting for us to close our side"
  | 9 => "we sent our final ack, waiting for it to land"
  | 10 => "listening for incoming connections"
  | 11 => "both sides closing simultaneously"
  | 12 => "inbound SYN queued, not yet accepted"
  | _ => "unrecognized TCP state").toList

/-! ## Addresses -/

def AF_INET : UInt16 := 2

/-- The eight big-endian numbers of an IPv6 address. -/
def segments (addr : Vector UInt8 16) : List ℕ :=
  List.ofFn fun i : Fin 8 => addr[2 * i.1].toNat * 256 + addr[2 * i.1 + 1].toNat

/-- `format_addr`: every family but `AF_INET6` is shown as IPv4. -/
def formatAddr (family : UInt16) (addr : Vector UInt8 16) : Text :=
  if family = AF_INET6 then IpText.ipv6 (segments addr)
  else IpText.ipv4 [addr[0].toNat, addr[1].toNat, addr[2].toNat, addr[3].toNat]

/-- `{addr}:{port}`, as both the panel and the summary label an endpoint. -/
def endpoint (family : UInt16) (addr : Vector UInt8 16) (port : UInt16) : Text :=
  formatAddr family addr ++ ':' :: Nat.toDigits 10 port.toNat

/-- The bytes of an address that its text shows. -/
def shownBytes (family : UInt16) (addr : Vector UInt8 16) : List UInt8 :=
  if family = AF_INET6 then addr.toList else [addr[0], addr[1], addr[2], addr[3]]

lemma length_segments (addr : Vector UInt8 16) : (segments addr).length = 8 := by
  simp [segments]

/-- The numbers determine the bytes. -/
lemma segments_inj {addr addr' : Vector UInt8 16} (h : segments addr = segments addr') :
    addr = addr' := by
  have hpair : ∀ i : Fin 8, addr[2 * i.1] = addr'[2 * i.1] ∧
      addr[2 * i.1 + 1] = addr'[2 * i.1 + 1] := by
    intro i
    have hi := congrFun (List.ofFn_injective h) i
    have := addr[2 * i.1 + 1].toNat_lt
    have := addr'[2 * i.1 + 1].toNat_lt
    exact ⟨UInt8.toNat_inj.mp (by omega), UInt8.toNat_inj.mp (by omega)⟩
  apply Vector.ext
  intro i hi
  obtain ⟨heven, hodd⟩ := hpair ⟨i / 2, by omega⟩
  rcases Nat.mod_two_eq_zero_or_one i with h2 | h2
  · have hi2 : 2 * (i / 2) = i := by omega
    simpa [hi2] using heven
  · have hi2 : 2 * (i / 2) + 1 = i := by omega
    simpa [hi2] using hodd

/-- **The text of an address shows its bytes.** -/
lemma formatAddr_eq_iff {family family' : UInt16} {addr addr' : Vector UInt8 16} :
    formatAddr family addr = formatAddr family' addr' ↔
      shownBytes family addr = shownBytes family' addr' := by
  unfold formatAddr shownBytes
  by_cases hv6 : family = AF_INET6
  · by_cases hv6' : family' = AF_INET6
    · rw [if_pos hv6, if_pos hv6', if_pos hv6, if_pos hv6']
      constructor
      · intro h
        have hsegments := congrArg IpText.readIpv6 h
        rw [IpText.readIpv6_ipv6 (length_segments addr),
          IpText.readIpv6_ipv6 (length_segments addr')] at hsegments
        rw [segments_inj hsegments]
      · intro h
        rw [Vector.toList_inj.mp h]
    · rw [if_pos hv6, if_neg hv6', if_pos hv6, if_neg hv6']
      constructor
      · intro h
        have hcolon := IpText.colon_mem_ipv6 (length_segments addr)
        rw [h] at hcolon
        exact absurd hcolon (IpText.not_mem_ipv4 (by decide) (by decide))
      · intro h
        have hlength := congrArg List.length h
        simp at hlength
  · by_cases hv6' : family' = AF_INET6
    · rw [if_neg hv6, if_pos hv6', if_neg hv6, if_pos hv6']
      constructor
      · intro h
        have hcolon := IpText.colon_mem_ipv6 (length_segments addr')
        rw [← h] at hcolon
        exact absurd hcolon (IpText.not_mem_ipv4 (by decide) (by decide))
      · intro h
        have hlength := congrArg List.length h
        simp at hlength
    · rw [if_neg hv6, if_neg hv6', if_neg hv6, if_neg hv6']
      constructor
      · intro h
        have hoctets := congrArg IpText.readIpv4 h
        rw [IpText.readIpv4_ipv4 (by simp), IpText.readIpv4_ipv4 (by simp)] at hoctets
        simpa [UInt8.toNat_inj] using hoctets
      · intro h
        simp only [List.cons.injEq, and_true] at h
        rw [h.1, h.2.1, h.2.2.1, h.2.2.2]

/-- **An endpoint is read back from its label**: the port stands after the last colon. -/
lemma endpoint_eq_iff {family family' : UInt16} {addr addr' : Vector UInt8 16}
    {port port' : UInt16} :
    endpoint family addr port = endpoint family' addr' port' ↔
      shownBytes family addr = shownBytes family' addr' ∧ port = port' := by
  have hport : ∀ port : UInt16, ':' ∉ Nat.toDigits 10 port.toNat := fun port h =>
    absurd (Str.isDigit_of_mem h) (by decide)
  rw [← formatAddr_eq_iff]
  constructor
  · intro h
    have hdigits := congrArg (Str.afterLast ':') h
    rw [endpoint, endpoint, Str.afterLast_append_cons _ (hport port),
      Str.afterLast_append_cons _ (hport port'), Option.some_inj] at hdigits
    rw [endpoint, endpoint, hdigits] at h
    refine ⟨List.append_cancel_right h, UInt16.toNat_inj.mp ?_⟩
    simpa using congrArg (fun ds => Nat.ofDigitChars 10 ds 0) hdigits
  · rintro ⟨h, rfl⟩
    rw [endpoint, endpoint, h]

/-! ## Rows -/

/-- The labels of a row, local and remote. -/
def ConnectionKey.labels (k : ConnectionKey) : Text × Text :=
  (endpoint k.family k.saddr k.sport, endpoint k.family k.daddr k.dport)

/-- Outside IPv6 only the first four bytes of an address are used. -/
def PaddedAddr (family : UInt16) (addr : Vector UInt8 16) : Prop :=
  family ≠ AF_INET6 → ∃ addr4, addr = padV4 addr4

def ConnectionKey.Padded (k : ConnectionKey) : Prop :=
  PaddedAddr k.family k.saddr ∧ PaddedAddr k.family k.daddr

/-- Between addresses as the programs report them, the bytes that are shown tell all. -/
lemma eq_of_shownBytes_eq {family family' : UInt16} {addr addr' : Vector UInt8 16}
    (h : PaddedAddr family addr) (h' : PaddedAddr family' addr')
    (hbytes : shownBytes family addr = shownBytes family' addr') :
    addr = addr' ∧ (family = AF_INET6 ↔ family' = AF_INET6) := by
  unfold shownBytes at hbytes
  by_cases hv6 : family = AF_INET6
  · by_cases hv6' : family' = AF_INET6
    · rw [if_pos hv6, if_pos hv6'] at hbytes
      exact ⟨Vector.toList_inj.mp hbytes, by simp [hv6, hv6']⟩
    · rw [if_pos hv6, if_neg hv6'] at hbytes
      have hlength := congrArg List.length hbytes
      simp at hlength
  · by_cases hv6' : family' = AF_INET6
    · rw [if_neg hv6, if_pos hv6'] at hbytes
      have hlength := congrArg List.length hbytes
      simp at hlength
    · rw [if_neg hv6, if_neg hv6'] at hbytes
      obtain ⟨addr4, rfl⟩ := h hv6
      obtain ⟨addr4', rfl⟩ := h' hv6'
      refine ⟨?_, by simp [hv6, hv6']⟩
      rw [padV4_inj]
      apply Vector.ext
      intro i hi
      simp only [padV4, Vector.getElem_ofFn, List.cons.injEq, and_true] at hbytes
      obtain ⟨h0, h1, h2, h3⟩ := hbytes
      have hcases : i = 0 ∨ i = 1 ∨ i = 2 ∨ i = 3 := by omega
      rcases hcases with rfl | rfl | rfl | rfl
      · simpa [List.getD] using h0
      · simpa [List.getD] using h1
      · simpa [List.getD] using h2
      · simpa [List.getD] using h3

/-- Labels tell two rows apart unless they differ in nothing but an IPv4-like family. -/
lemma labels_eq_iff {k k' : ConnectionKey} (h : k.Padded) (h' : k'.Padded) :
    k.labels = k'.labels ↔
      k' = { k with family := k'.family } ∧ (k.family = AF_INET6 ↔ k'.family = AF_INET6) := by
  unfold ConnectionKey.labels
  rw [Prod.mk.injEq, endpoint_eq_iff, endpoint_eq_iff]
  constructor
  · rintro ⟨⟨hsaddr, hsport⟩, hdaddr, hdport⟩
    obtain ⟨hsaddr, hfamily⟩ := eq_of_shownBytes_eq h.1 h'.1 hsaddr
    obtain ⟨hdaddr, -⟩ := eq_of_shownBytes_eq h.2 h'.2 hdaddr
    refine ⟨?_, hfamily⟩
    rw [hsaddr, hsport, hdaddr, hdport]
  · rintro ⟨hk, hfamily⟩
    have hshown : ∀ addr, shownBytes k.family addr = shownBytes k'.family addr := by
      intro addr
      unfold shownBytes
      simp only [hfamily]
    rw [hshown, hshown, hk]
    exact ⟨⟨rfl, rfl⟩, rfl, rfl⟩

/-! ## Live traces -/

lemma padded_event (f : NetFiring) : f.event.key.Padded := by
  constructor <;>
  · intro hfamily
    have hfamily : ¬ f.ctx.field UInt16 f.kind.layout.family = AF_INET6 := hfamily
    simp only [NetEvent.key, NetFiring.event, hfamily, if_false]
    exact ⟨_, rfl⟩

/-- The programs output padded addresses only. -/
lemma netEvents_padded (target : Target) (l : List Firing) :
    ∀ item ∈ ((Kernel.load target).run l).netEvents, item.record.key.Padded := by
  induction l using List.reverseRecOn with
  | nil => exact fun item hitem => absurd hitem List.not_mem_nil
  | append_singleton l f ih =>
    have hnet : ∀ g : NetFiring, ∀ item ∈ (((Kernel.load target).run l).fire g.toFiring).netEvents,
        item.record.key.Padded := by
      intro g item hitem
      rcases netEvents_fire ((Kernel.load target).run l) g with hsame | hout
      · exact ih item (hsame ▸ hitem)
      · rw [hout] at hitem
        rcases List.mem_append.mp hitem with hitem | hitem
        · exact ih item hitem
        · rw [List.mem_singleton.mp hitem]
          exact padded_event g
    rw [run_concat]
    obtain ⟨tracepoint, h, ctx⟩ := f
    cases tracepoint with
    | inetSockSetState => exact hnet ⟨.StateChange, h, ctx⟩
    | tcpRetransmitSkb => exact hnet ⟨.Retransmit, h, ctx⟩
    | sysEnter | sysExit | kmalloc | kfree =>
      rw [fire_frame]
      exact ih

/-- **Connections are labelled apart.**  In every state of a live trace, two rows of the table
have the same labels exactly if they agree in ports and addresses and are both IPv6 or both not.
With families `AF_INET` and `AF_INET6` only, they are then the same row. -/
theorem connections_labelled_apart (target : Target) (steps : List LiveStep) {k k' : ConnectionKey}
    (hk : (((Tracer.attach target).exec steps).tables.connections.lookup k).isSome)
    (hk' : (((Tracer.attach target).exec steps).tables.connections.lookup k').isSome) :
    (k.labels = k'.labels ↔
      k' = { k with family := k'.family } ∧ (k.family = AF_INET6 ↔ k'.family = AF_INET6)) ∧
    (k.family ∈ [AF_INET, AF_INET6] → k'.family ∈ [AF_INET, AF_INET6] →
      (k.labels = k'.labels ↔ k = k')) := by
  obtain ⟨taken, h⟩ := exec_follows (.attach target) steps
  have htaken : ∀ item ∈ taken.netEvents, item.record.key.Padded := by
    intro item hitem
    refine netEvents_padded target (fired steps) item ?_
    show item ∈ ((Tracer.attach target).kernel.run (fired steps)).rings.netEvents
    rw [h.rings_eq]
    exact List.mem_append_left _ hitem
  have hpadded : ∀ k, (((Tracer.attach target).exec steps).tables.connections.lookup k).isSome →
      k.Padded := by
    rw [h.2]
    refine drain_invariant (I := fun connections : ConnMap => ∀ k,
      (connections.lookup k).isSome → k.Padded) (fun item hitem connections ih k hk => ?_) ?_
    · have hlocal := drainNetOne_local connections item.record k
      dsimp only at hlocal
      rw [hlocal] at hk
      split at hk
      · rename_i heq
        exact heq ▸ htaken item hitem
      · exact ih k hk
    · intro k hk
      simp [Tracer.attach] at hk
  have hiff := labels_eq_iff (hpadded k hk) (hpadded k' hk')
  refine ⟨hiff, fun hfamily hfamily' => ⟨fun hlabels => ?_, fun heq => heq ▸ rfl⟩⟩
  obtain ⟨heq, hv6⟩ := hiff.mp hlabels
  have hsame : k.family = k'.family := by
    simp only [List.mem_cons, List.not_mem_nil, or_false] at hfamily hfamily'
    rcases hfamily with h4 | h6
    · rcases hfamily' with h4' | h6'
      · rw [h4, h4']
      · exact (hv6.mpr h6').trans h6'.symm
    · exact h6.trans (hv6.mp h6).symm
  rw [heq, ← hsame]

/-- Two sockets of the target, established from different ports. -/
def twoPorts : List LiveStep :=
  [.fire (NetFiring.plain .StateChange 1 1 1024 1).toFiring,
    .fire (NetFiring.plain .StateChange 1 2 1025 1).toFiring, .next .netEvents, .next .netEvents]

/-- The row of a port. -/
def portRow (port : UInt16) : ConnectionKey := (NetFiring.plain .StateChange 1 0 port 1).tuple

theorem connections_labelled_apart_twoPorts :
    (portRow 1024).labels ≠ (portRow 1025).labels := by
  have hrow := show
      (((Tracer.attach (.Pid 1)).exec twoPorts).tables.connections.lookup (portRow 1024)).isSome ∧
      (((Tracer.attach (.Pid 1)).exec twoPorts).tables.connections.lookup (portRow 1025)).isSome by
    decide +kernel
  have hiff := (connections_labelled_apart (.Pid 1) twoPorts hrow.1 hrow.2).1
  intro hlabels
  have hport := congrArg ConnectionKey.sport (hiff.mp hlabels).1
  exact absurd hport (by decide +kernel)

end Peekbeam
