import KSock.Lib.Trace
import KSock.RecvPdu
/-!
# Reassembly of PDUs

When does a run of receiving rounds hand over what the peer sent? `recv` writes
over unread bytes, so a run stays in step with the stream as long as every
`recv` that returns does so into an empty buffer. `InStep` says what such a run
looks like, and the results of this module are read off it: what is handed over
is the stream's frames in order, each where the header and the payload that
arrived lie, and no `recv` waits behind a complete frame.
-/
open KSockLib KSockLib.Memory KSockLib.Trace

namespace KSock.RecvPdu

variable {SIZE : ObjectSize} {sb : SocketBuffer SIZE}

/-- A `recv` that returns returns data, into an empty buffer. -/
def IntoEmpty : Event SIZE → Prop
  | .recv _ none => True
  | .recv sb (some (.data _)) => sb.used = 0
  | .recv _ (some _) => False
  | .body _ _ _ => True
  | .overrun => True

theorem IntoEmpty.not_fails {ev : Event SIZE} (h : IntoEmpty ev) : ¬ Fails ev := by
  rcases ev with ⟨sb, _ | _ | _ | _⟩ | _ | _ <;> simp_all [IntoEmpty, Fails]

instance : DecidablePred (@IntoEmpty SIZE)
  | .recv _ none => isTrue trivial
  | .recv sb (some (.data _)) => inferInstanceAs (Decidable (sb.used = 0))
  | .recv _ (some .closed) => isFalse not_false
  | .recv _ (some .failed) => isFalse not_false
  | .body _ _ _ => isTrue trivial
  | .overrun => isTrue trivial

/-- The body is given the PDU `m`, with `x` behind it in the buffer. -/
structure Hands (m : Pdu) (x : List UInt8) (sb : SocketBuffer SIZE) (hdr : PduHeader) : Prop where
  inv : sb.Inv
  pending : sb.pending = m.payload ++ x
  header : hdr = ⟨m.pduType, UInt32.ofNat m.payload.length⟩

/-- Nothing more happens, or one `recv` waits with `x` pending. -/
def Stops (x : List UInt8) (trace : List (Event SIZE)) : Prop :=
  trace = [] ∨ ∃ sb : SocketBuffer SIZE, sb.pending = x ∧ trace = [.recv sb none]

/-- Runs in step with the stream: each `recv` brings one frame, whose body is
run; the last may bring less than a frame, or more. -/
inductive InStep : List (Event SIZE) → Prop where
  | done : InStep []
  | waits {sb : SocketBuffer SIZE} (hsb : sb.pending = []) : InStep [.recv sb none]
  | word {sb sb' : SocketBuffer SIZE} {m : Pdu} {hdr : PduHeader} {tr : List (Event SIZE)} (hsb : sb.pending = [])
      (hands : Hands m [] sb' hdr) (next : InStep tr) :
      InStep (.recv sb (some (.data (frame m))) :: .body true sb' hdr :: tr)
  | fragment {sb : SocketBuffer SIZE} {p : List UInt8} {tr : List (Event SIZE)} (hsb : sb.pending = [])
      (hp : ¬ ∃ m, frame m <+: p) (stops : Stops p tr) : InStep (.recv sb (some (.data p)) :: tr)
  | excess {sb sb' : SocketBuffer SIZE} {m : Pdu} {x : List UInt8} {hdr : PduHeader} {tr : List (Event SIZE)}
      (hsb : sb.pending = []) (hands : Hands m x sb' hdr) (stops : Stops x tr) :
      InStep (.recv sb (some (.data (frame m ++ x))) :: .body true sb' hdr :: tr)

/-! ## Runs into empty buffers are in step -/

theorem Ready.pending_nil (h : Ready sb) : sb.pending = [] ↔ sb.used = 0 := by
  rw [← List.length_eq_zero_iff, h.length_pending]

/-- With bytes left over, a loop can only wait. -/
theorem recvLoop_stops (h : Ready sb) (h0 : sb.used ≠ 0) (hdr : PduHeader) (results : List RecvResult)
    (hempty : ∀ ev ∈ (recvLoop sb hdr results).1, IntoEmpty ev) :
    recvLoop sb hdr results = ([.recv sb none], none) := by
  cases results with
  | nil => rfl
  | cons r rest =>
    by_cases hr : r.Allowed (SIZE.bytes - sb.used)
    swap
    · rw [recvLoop, h.remaining, if_pos hr]
    cases r with
    | closed | failed =>
      rw [recvLoop_fails h hdr rest (by simp)] at hempty
      exact absurd (hempty _ List.mem_cons_self) not_false
    | data bs =>
      rcases recvLoop_data h hdr rest hr with ⟨-, he⟩ | ⟨-, _, he⟩ <;> rw [he] at hempty
      · exact absurd (hempty _ List.mem_cons_self) h0
      · exact absurd (hempty _ List.mem_cons_self) h0

/-- With bytes left over, so can a whole run. -/
theorem recvRounds_stops (locals : Nat → PduHeader) (n : Nat) (h : Ready sb) (h0 : sb.used ≠ 0)
    (results : List RecvResult) (hempty : ∀ ev ∈ recvRounds locals n sb results, IntoEmpty ev) :
    Stops sb.pending (recvRounds locals n sb results) := by
  induction n with
  | zero => exact .inl rfl
  | succ n ih =>
    rw [recvRounds_succ] at hempty ⊢
    by_cases hfull : sb.getRemainingRecvSize = 0
    · rw [recvRound_full hfull] at hempty ⊢
      exact ih hempty
    · have hloop := recvLoop_stops h h0 (locals n) results fun ev hev =>
        hempty ev (List.mem_append_left _ (mem_recvRound hfull hev))
      rw [recvRound_waits hfull hloop]
      exact .inr ⟨sb, rfl, rfl⟩

/-- What `fill` leaves in an empty buffer. -/
theorem fill_pending (h0 : sb.used = 0) (p : List UInt8) : (fill sb p).pending = p := by
  rw [SocketBuffer.pending, fill]
  simp only [h0, Nat.zero_add, Nat.sub_zero, read_write_same]

/-- If a buffer holds `m` and then `x`, `GetPdu` hands over `m`. -/
theorem hands_of_frame (h : Ready sb) {m : Pdu} {x : List UInt8} (hp : sb.pending = frame m ++ x) :
    Hands m x (pastHeader sb) sb.header := by
  have hlen := congrArg List.length hp
  rw [h.length_pending, List.length_append, length_frame] at hlen
  have hpast : (pastHeader sb).pending = sb.pending.drop 6 := by
    rw [SocketBuffer.pending, SocketBuffer.pending, pastHeader, h.consumed, drop_read _ _ (by omega)]
    rfl
  refine ⟨⟨by simp only [pastHeader]; omega, h.used_le⟩, ?_, ?_⟩
  · rw [hpast, hp, frame, List.append_assoc]
    exact List.drop_left' (length_headerBytes _ _)
  · rw [header_eq (by rw [h.consumed]; omega), hp, lenField_frame, typeField_frame]

theorem Hands.pduLen {m : Pdu} {x : List UInt8} {hdr : PduHeader} (h : Hands m x sb hdr) :
    hdr.pduLen.toNat = m.payload.length := by
  rw [h.header]
  exact Nat.mod_eq_of_lt m.fits

theorem Hands.payload_le {m : Pdu} {x : List UInt8} {hdr : PduHeader} (h : Hands m x sb hdr) :
    sb.consumed + hdr.pduLen.toNat ≤ sb.used := by
  have hlen := congrArg List.length h.pending
  rw [SocketBuffer.length_pending, List.length_append] at hlen
  have := h.inv.consumed_le
  rw [h.pduLen]
  omega

/-- The `pdu_len` bytes at `GetStart()` are the payload. -/
theorem Hands.payload {m : Pdu} {x : List UInt8} {hdr : PduHeader} (h : Hands m x sb hdr) :
    read sb.buffer sb.getStart hdr.pduLen.toNat = m.payload := by
  have hle := h.payload_le
  rw [SocketBuffer.getStart, ← take_read sb.buffer sb.consumed (n := sb.used - sb.consumed) (by omega)]
  rw [← SocketBuffer.pending, h.pending, h.pduLen]
  exact List.take_left

/-- `RECV_PDU_END` leaves what is behind the PDU. -/
theorem Hands.finish {m : Pdu} {x : List UInt8} {hdr : PduHeader} (h : Hands m x sb hdr) :
    ∃ sb', (sb.consume hdr.pduLen.toNat).2.sweep = some sb' ∧ Ready sb' ∧ sb'.pending = x := by
  obtain ⟨sb', hc, hi, hp⟩ := h.inv.consume_pending (n := hdr.pduLen.toNat) (by have := h.payload_le; omega)
  obtain ⟨sb'', hs, hready, hp'⟩ := Ready.sweep hi
  refine ⟨sb'', by rw [hc]; exact hs, hready, ?_⟩
  rw [hp', hp, h.pending, h.pduLen]
  exact List.drop_left

/-- A round on an empty buffer, when every `recv` that returns finds it empty. -/
theorem recvRound_cases (h : Ready sb) (h0 : sb.used = 0) (hdr : PduHeader) (results : List RecvResult)
    (hempty : ∀ ev ∈ (recvRound hdr sb results).1, IntoEmpty ev) :
    recvRound hdr sb results = ([], some (sb, results)) ∨
      recvRound hdr sb results = ([.recv sb none], none) ∨
      (∃ p, (¬ ∃ m, frame m <+: p) ∧ ∃ tr, Stops p tr ∧
        recvRound hdr sb results = (.recv sb (some (.data p)) :: tr, none)) ∨
      ∃ m x sb' hdr' sb'' rest, Hands m x sb' hdr' ∧ Ready sb'' ∧ sb''.pending = x ∧
        recvRound hdr sb results =
          ([.recv sb (some (.data (frame m ++ x))), .body true sb' hdr'], some (sb'', rest)) := by
  by_cases hfull : sb.getRemainingRecvSize = 0
  · exact .inl (recvRound_full hfull)
  right
  have hloop : ∀ ev ∈ (recvLoop sb hdr results).1, IntoEmpty ev := fun ev hev => hempty ev (mem_recvRound hfull hev)
  cases results with
  | nil => exact .inl (recvRound_waits hfull rfl)
  | cons r rest =>
    by_cases hr : r.Allowed (SIZE.bytes - sb.used)
    swap
    · exact .inl (recvRound_waits hfull (by rw [recvLoop, h.remaining, if_pos hr]))
    right
    cases r with
    | closed | failed =>
      rw [recvLoop_fails h hdr rest (by simp)] at hloop
      exact absurd (hloop _ List.mem_cons_self) not_false
    | data p =>
      have hready := h.fill hr.2.1
      have hpend := fill_pending h0 p
      rcases recvLoop_data h hdr rest hr with ⟨⟨m, x, hmx⟩, he⟩ | ⟨hp, hdr', he⟩
      · right
        have hands := hands_of_frame hready hmx.symm
        obtain ⟨sb'', hs, hready'', hx⟩ := hands.finish
        refine ⟨m, x, _, _, sb'', rest, hands, hready'', hx, ?_⟩
        rw [recvRound_left hfull he hs, hmx, hpend]
        rfl
      · left
        rw [he] at hloop
        have hused : (fill sb p).used ≠ 0 := by
          have := hr.1
          simp only [fill]
          omega
        have hstop := recvLoop_stops hready hused hdr' rest fun ev hev => hloop ev (List.mem_cons_of_mem _ hev)
        rw [hstop] at he
        refine ⟨p, by rwa [HoldsFrame, hpend] at hp, _, .inr ⟨fill sb p, hpend, rfl⟩, recvRound_waits hfull he⟩

/-- A run in which every `recv` that returns finds the buffer empty is in step. -/
theorem recvRounds_inStep (locals : Nat → PduHeader) (n : Nat) (h : Ready sb) (h0 : sb.used = 0)
    (results : List RecvResult) (hempty : ∀ ev ∈ recvRounds locals n sb results, IntoEmpty ev) :
    InStep (recvRounds locals n sb results) := by
  have hnil := h.pending_nil.2 h0
  induction n generalizing sb results with
  | zero => exact .done
  | succ n ih =>
    rw [recvRounds_succ] at hempty ⊢
    rw [List.forall_mem_append] at hempty
    obtain ⟨hround, hnext⟩ := hempty
    rcases recvRound_cases h h0 (locals n) results hround with he | he | ⟨p, hp, tr, htr, he⟩ |
      ⟨m, x, sb', hdr', sb'', rest, hands, hready, hx, he⟩ <;> rw [he] at hnext ⊢
    · exact ih h h0 results hnext hnil
    · exact .waits hnil
    · simpa using InStep.fragment hnil hp htr
    · cases x with
      | nil =>
        rw [List.append_nil]
        exact .word hnil hands (ih hready (hready.pending_nil.1 hx) rest hnext hx)
      | cons b x =>
        have h0' : sb''.used ≠ 0 := by
          rw [ne_eq, ← hready.pending_nil, hx]
          exact List.cons_ne_nil b x
        have hstops := recvRounds_stops locals n hready h0' rest hnext
        rw [hx] at hstops
        exact .excess hnil hands hstops

/-! ## What a run in step hands over -/

/-- The type and payload of a PDU. -/
def contents (m : Pdu) : UInt16 × List UInt8 := (m.pduType, m.payload)

theorem Stops.nothing {x : List UInt8} {tr : List (Event SIZE)} (h : Stops x tr) :
    received tr = [] ∧ delivered tr = [] := by
  rcases h with rfl | ⟨sb, -, rfl⟩
  · exact ⟨rfl, rfl⟩
  · exact ⟨rfl, rfl⟩

/-- The body of a PDU is given its type and payload. -/
theorem Hands.delivered_eq {m : Pdu} {x : List UInt8} {hdr : PduHeader} (h : Hands m x sb hdr)
    (tr : List (Event SIZE)) : delivered (.body true sb hdr :: tr) = contents m :: delivered tr := by
  rw [delivered_body, h.payload, h.header]
  rfl

/-- What is handed over is the front of what was sent. -/
theorem InStep.delivered_of_received {tr : List (Event SIZE)} (h : InStep tr) {pdus : List Pdu}
    (hr : received tr <+: framing.stream pdus) : delivered tr <+: pdus.map contents := by
  induction h generalizing pdus with
  | done | waits => exact List.nil_prefix
  | @word _ _ m _ tr _ hands _ ih =>
    have hr' : framing.enc m ++ received tr <+: framing.stream pdus := by simpa [RecvResult.bytes] using hr
    obtain ⟨rest, rfl, hrest⟩ := framing.uncons_stream hr'
    rw [delivered_recv, hands.delivered_eq, List.map_cons]
    exact (List.prefix_cons_inj _).2 (ih hrest)
  | fragment _ _ stops =>
    rw [delivered_recv, stops.nothing.2]
    exact List.nil_prefix
  | @excess _ _ m x _ tr _ hands stops =>
    have hr' : framing.enc m ++ (x ++ received tr) <+: framing.stream pdus := by
      simpa [RecvResult.bytes] using hr
    obtain ⟨rest, rfl, -⟩ := framing.uncons_stream hr'
    rw [delivered_recv, hands.delivered_eq, stops.nothing.2, List.map_cons]
    exact (List.prefix_cons_inj _).2 List.nil_prefix

/-- A body is given the frame that came after whole frames. -/
def HandsReceived (pre : List (Event SIZE)) : Event SIZE → Prop
  | .recv _ _ => True
  | .body ok sb hdr => ok = true ∧
      ∃ ms m x, received pre = framing.stream ms ++ (frame m ++ x) ∧ Hands m x sb hdr
  | .overrun => False

theorem Stops.along {Q : List (Event SIZE) → Event SIZE → Prop} {x : List UInt8} {tr : List (Event SIZE)}
    (h : Stops x tr) (hQ : ∀ sb : SocketBuffer SIZE, sb.pending = x → Q [] (.recv sb none)) : Along Q tr := by
  rcases h with rfl | ⟨sb, hsb, rfl⟩
  · exact .nil
  · exact .cons (hQ sb hsb) .nil

theorem InStep.handsReceived {tr : List (Event SIZE)} (h : InStep tr) : Along HandsReceived tr := by
  induction h with
  | done => exact .nil
  | waits => exact .cons trivial .nil
  | @word _ _ m _ _ _ hands _ ih =>
    refine .cons trivial (.cons ⟨rfl, [], m, [], by simp [RecvResult.bytes], hands⟩ (ih.mono fun pre ev hev => ?_))
    rcases ev with _ | ⟨ok, sb, hdr⟩ | _
    · trivial
    · obtain ⟨hok, ms, m', x', hr, hands'⟩ := hev
      exact ⟨hok, m :: ms, m', x', by simp [RecvResult.bytes, hr], hands'⟩
    · exact hev
  | fragment _ _ stops => exact .cons trivial (stops.along fun _ _ => trivial)
  | @excess _ _ m x _ _ _ hands stops =>
    refine .cons trivial (.cons ⟨rfl, [], m, x, by simp [RecvResult.bytes], hands⟩ ?_)
    exact stops.along fun _ _ => trivial

/-- What `recv` returned does not hold two frames. -/
def AtMostOneFrame : Event SIZE → Prop
  | .recv _ (some r) => ¬ ∃ m m', frame m ++ frame m' <+: r.bytes
  | _ => True

/-- What `recv` returned is too short for two headers. -/
def Short : Event SIZE → Prop
  | .recv _ (some r) => r.bytes.length < 12
  | _ => True

instance : DecidablePred (@Short SIZE)
  | .recv _ (some r) => inferInstanceAs (Decidable (r.bytes.length < 12))
  | .recv _ none => isTrue trivial
  | .body _ _ _ => isTrue trivial
  | .overrun => isTrue trivial

theorem Short.atMostOneFrame {ev : Event SIZE} (h : Short ev) : AtMostOneFrame ev := by
  rcases ev with ⟨sb, _ | r⟩ | _ | _
  · trivial
  · rintro ⟨m, m', hp⟩
    have hlen := hp.length_le
    have : r.bytes.length < 12 := h
    simp only [List.length_append, length_frame] at hlen
    omega
  · trivial
  · trivial

/-- No `recv` is called with a frame pending, or before the bodies of the frames
that have arrived have been run. -/
def WaitsForMore (pdus : List Pdu) (pre : List (Event SIZE)) : Event SIZE → Prop
  | .recv sb _ => ¬ HoldsFrame sb ∧ ∀ k ≤ pdus.length,
      (framing.stream (pdus.take k)).length ≤ (received pre).length → k ≤ (delivered pre).length
  | _ => True

theorem not_holdsFrame (h : sb.pending = []) : ¬ HoldsFrame sb := by
  rintro ⟨m, hm⟩
  rw [h, List.prefix_nil] at hm
  exact framing.pos m hm

theorem InStep.waitsForMore {tr : List (Event SIZE)} (h : InStep tr) {pdus : List Pdu}
    (hr : received tr <+: framing.stream pdus) (hone : ∀ ev ∈ tr, AtMostOneFrame ev) :
    Along (WaitsForMore pdus) tr := by
  -- before anything has arrived, no frame has
  have hnone {pdus : List Pdu} (k : Nat) (hk : k ≤ pdus.length)
      (hlen : (framing.stream (pdus.take k)).length ≤ 0) : k ≤ 0 := by
    by_contra hpos
    have := framing.length_stream_take_lt (j := 0) (by omega) hk
    omega
  induction h generalizing pdus with
  | done => exact .nil
  | waits hsb => exact .cons ⟨not_holdsFrame hsb, hnone⟩ .nil
  | @word _ _ m _ tr hsb hands _ ih =>
    have hr' : framing.enc m ++ received tr <+: framing.stream pdus := by simpa [RecvResult.bytes] using hr
    obtain ⟨rest, rfl, hrest⟩ := framing.uncons_stream hr'
    have htr : ∀ ev ∈ tr, AtMostOneFrame ev := fun ev hev => hone ev (by simp [hev])
    refine .cons ⟨not_holdsFrame hsb, hnone⟩ (.cons trivial ((ih hrest htr).mono fun pre ev hev => ?_))
    rcases ev with ⟨sb, r⟩ | _ | _
    · refine ⟨hev.1, ?_⟩
      intro k hk hlen
      cases k with
      | zero => omega
      | succ k =>
        have := hev.2 k (by simpa using hk) (by simpa [RecvResult.bytes] using hlen)
        simpa [hands.delivered_eq] using this
    · trivial
    · trivial
  | @fragment _ p tr hsb hp stops =>
    have hp' : p <+: framing.stream pdus := by simpa [stops.nothing.1, RecvResult.bytes] using hr
    refine .cons ⟨not_holdsFrame hsb, hnone⟩ (stops.along fun sb hx => ⟨by rwa [HoldsFrame, hx], fun k hk hlen => ?_⟩)
    have hpre := framing.stream_take_isPrefix hp' (by simpa [RecvResult.bytes] using hlen)
    rcases k with _ | k
    · exact Nat.zero_le _
    rcases pdus with _ | ⟨m, rest⟩
    · simp at hk
    · exact absurd ⟨m, (List.prefix_append _ _).trans hpre⟩ hp
  | @excess _ _ m x _ tr hsb hands stops =>
    have hone' : ¬ ∃ m₁ m₂, frame m₁ ++ frame m₂ <+: frame m ++ x := hone _ List.mem_cons_self
    have hp' : frame m ++ x <+: framing.stream pdus := by simpa [stops.nothing.1, RecvResult.bytes] using hr
    refine .cons ⟨not_holdsFrame hsb, hnone⟩ (.cons trivial (stops.along fun sb hx => ⟨?_, fun k hk hlen => ?_⟩))
    · rintro ⟨m', hm'⟩
      rw [hx] at hm'
      exact hone' ⟨m, m', (List.prefix_append_right_inj _).2 hm'⟩
    · have hpre := framing.stream_take_isPrefix hp' (by simpa [RecvResult.bytes] using hlen)
      rcases k with _ | _ | k
      · exact Nat.zero_le _
      · simp [hands.delivered_eq]
      rcases pdus with _ | ⟨m₁, _ | ⟨m₂, rest⟩⟩
      · simp at hk
      · simp at hk
      · have htwo : frame m₁ ++ frame m₂ <+: framing.stream ((m₁ :: m₂ :: rest).take (k + 2)) := by
          simp only [List.take_succ_cons, PrefixCode.stream_cons, framing_enc, ← List.append_assoc]
          exact List.prefix_append _ _
        exact absurd ⟨m₁, m₂, htwo.trans hpre⟩ hone'

/-! ## Streams cut at the frames -/

theorem recvLoop_waits (hdr : PduHeader) : recvLoop sb hdr [] = ([.recv sb none], none) := rfl

/-- With nothing more to come, a `recv` can only wait. -/
theorem recvRounds_nil_intoEmpty (locals : Nat → PduHeader) (n : Nat) :
    ∀ ev ∈ recvRounds locals n sb [], IntoEmpty ev := by
  induction n with
  | zero => simp [recvRounds]
  | succ n ih =>
    rw [recvRounds_succ]
    by_cases hfull : sb.getRemainingRecvSize = 0
    · rw [recvRound_full hfull]
      exact ih
    · rw [recvRound_waits hfull (recvLoop_waits (locals n))]
      simp [IntoEmpty]

/-- If every piece but the last is one frame, every `recv` that returns finds
the buffer empty. -/
theorem intoEmpty_of_words (locals : Nat → PduHeader) (n : Nat) (h : Ready sb) (h0 : sb.used = 0)
    {pieces : List (List UInt8)} (hwords : ∀ p ∈ pieces.dropLast, framing.IsWord p) :
    ∀ ev ∈ recvRounds locals n sb (pieces.map .data), IntoEmpty ev := by
  induction n generalizing sb pieces with
  | zero => simp [recvRounds]
  | succ n ih =>
    rw [recvRounds_succ]
    by_cases hfull : sb.getRemainingRecvSize = 0
    · rw [recvRound_full hfull]
      exact ih h h0 hwords
    cases pieces with
    | nil =>
      rw [List.map_nil, recvRound_waits hfull (recvLoop_waits (locals n))]
      simp [IntoEmpty]
    | cons p rest =>
      rw [List.map_cons]
      by_cases hr : (RecvResult.data p).Allowed (SIZE.bytes - sb.used)
      swap
      · rw [recvRound_waits hfull (by rw [recvLoop, h.remaining, if_pos hr])]
        simp [IntoEmpty]
      have hready := h.fill hr.2.1
      have hpend := fill_pending h0 p
      rcases recvLoop_data h (locals n) (rest.map .data) hr with ⟨⟨m, x, hmx⟩, he⟩ | ⟨hp, hdr', he⟩
      · obtain ⟨sb', hs, hready', hx⟩ := (hands_of_frame hready hmx.symm).finish
        rw [recvRound_left hfull he hs]
        simp only [List.forall_mem_append, Option.elim_some]
        refine ⟨by simp [IntoEmpty, h0], ?_⟩
        cases rest with
        | nil => exact recvRounds_nil_intoEmpty locals n
        | cons q rest =>
          obtain ⟨m', hm'⟩ := hwords p (by simp)
          have hxnil : x = [] := by
            rw [hpend, hm', framing_enc, ← List.append_nil (frame m')] at hmx
            exact (framing.split_eq hmx).2
          exact ih hready' (hready'.pending_nil.1 (hx.trans hxnil)) fun p' hp' => hwords p' (by simp_all)
      · cases rest with
        | nil =>
          rw [List.map_nil] at he ⊢
          rw [recvLoop_waits] at he
          rw [recvRound_waits hfull he]
          simp [IntoEmpty, h0]
        | cons q rest =>
          obtain ⟨m', hm'⟩ := hwords p (by simp)
          exact absurd ⟨m', by rw [hpend, hm']; exact List.prefix_rfl⟩ hp

/-! ## Runs from a fresh buffer -/

theorem new_ready (memory : Nat → UInt8) : Ready (SocketBuffer.new memory : SocketBuffer SIZE) :=
  ⟨rfl, Nat.zero_le _⟩

theorem received_pieces (locals : Nat → PduHeader) (n : Nat) (sb : SocketBuffer SIZE) (pieces : List (List UInt8)) :
    received (recvRounds locals n sb (pieces.map .data)) <+: pieces.flatten := by
  have h := recvRounds_received locals n sb (pieces.map .data)
  rwa [List.flatMap_map, show (fun p => (RecvResult.data p).bytes) = id from rfl, List.flatMap_id] at h

/-- What the bodies are handed is a prefix of what was sent, if every `recv`
that returns finds the buffer empty; as it does if all pieces but the last are
one frame each. -/
theorem delivers_in_order (SIZE : ObjectSize) (memory : Nat → UInt8) (locals : Nat → PduHeader) (n : Nat)
    (pdus : List Pdu) (pieces : List (List UInt8)) (hcut : pieces.flatten <+: framing.stream pdus) :
    let run := recvRounds locals n (SocketBuffer.new memory : SocketBuffer SIZE) (pieces.map .data)
    ((∀ ev ∈ run, IntoEmpty ev) → delivered run <+: pdus.map contents) ∧
      ((∀ p ∈ pieces.dropLast, framing.IsWord p) → ∀ ev ∈ run, IntoEmpty ev) := by
  refine ⟨?_, intoEmpty_of_words locals n (new_ready memory) rfl⟩
  intro hempty
  have hin := recvRounds_inStep locals n (new_ready memory) rfl _ hempty
  exact hin.delivered_of_received ((received_pieces locals n _ pieces).trans hcut)

/-- A frame by itself, then one with the start of a third. -/
theorem two_frames_and_a_start_delivered :
    let run := recvRounds (fun _ => ⟨0, 0⟩) 3 (SocketBuffer.new (fun _ => 0) : SocketBuffer ⟨32, by decide⟩)
      ([[0, 0, 0, 1, 0, 1, 7], [0, 0, 0, 1, 0, 2, 8, 0]].map .data)
    delivered run = [(1, [7]), (2, [8])] ∧
      delivered run <+: [⟨1, [7], by decide⟩, ⟨2, [8], by decide⟩, ⟨3, [], by decide⟩].map contents := by
  refine ⟨by decide +kernel, ?_⟩
  obtain ⟨hdelivered, hwords⟩ := delivers_in_order ⟨32, by decide⟩ (fun _ => 0) (fun _ => ⟨0, 0⟩) 3
    [⟨1, [7], by decide⟩, ⟨2, [8], by decide⟩, ⟨3, [], by decide⟩]
    [[0, 0, 0, 1, 0, 1, 7], [0, 0, 0, 1, 0, 2, 8, 0]] ⟨[0, 0, 0, 0, 3], by decide +kernel⟩
  refine hdelivered (hwords fun p hp => ⟨⟨1, [7], by decide⟩, ?_⟩)
  obtain rfl : p = [0, 0, 0, 1, 0, 1, 7] := by simpa using hp
  decide +kernel

/-- A frame cut after its header: the payload is written over the header and
taken for one. -/
theorem cut_frame_misread :
    ¬ ∀ (SIZE : ObjectSize) (memory : Nat → UInt8) (locals : Nat → PduHeader) (n : Nat) (pdus : List Pdu)
      (pieces : List (List UInt8)), (∀ m ∈ pdus, (frame m).length ≤ SIZE.bytes) → (∀ p ∈ pieces, p ≠ []) →
      pieces.flatten = framing.stream pdus →
      delivered (recvRounds locals n (SocketBuffer.new memory : SocketBuffer SIZE) (pieces.map .data)) <+:
        pdus.map contents := by
  intro h
  have hrun := h ⟨32, by decide⟩ (fun _ => 0) (fun _ => ⟨0, 0⟩) 1 [⟨1, [0, 0, 0, 0, 0, 9], by decide⟩]
    [[0, 0, 0, 6, 0, 1], [0, 0, 0, 0, 0, 9]] (by decide) (by decide) (by decide)
  exact absurd hrun (by decide +kernel)

/-- Every body is entered with a `GetPdu` that returned true and its payload
between `consumed` and `used` exactly if no `recv` reports 0 or `SOCKET_ERROR`;
and if moreover every `recv` that returns finds the buffer empty, each body is
given the type and payload of a frame that was received. -/
theorem bodies_get_received_frames (SIZE : ObjectSize) (memory : Nat → UInt8) (locals : Nat → PduHeader) (n : Nat)
    (results : List RecvResult) :
    let run := recvRounds locals n (SocketBuffer.new memory : SocketBuffer SIZE) results
    ((∀ ev ∈ run, Guarded ev) ↔ ∀ ev ∈ run, ¬ Fails ev) ∧
      ((∀ ev ∈ run, IntoEmpty ev) → (∀ ev ∈ run, Guarded ev) ∧ Along HandsReceived run) := by
  have hiff := recvRounds_guarded_iff locals n (new_ready memory : Ready (.new memory : SocketBuffer SIZE)) results
  refine ⟨hiff, fun hempty => ⟨hiff.2 fun ev hev => (hempty ev hev).not_fails, ?_⟩⟩
  exact (recvRounds_inStep locals n (new_ready memory) rfl results hempty).handsReceived

/-- The body was entered without a PDU. -/
def entersWithoutPdu : Event SIZE → Bool
  | .body ok _ _ => !ok
  | _ => false

/-- The connection is closed at once, and the body runs all the same. -/
theorem closed_connection_enters_body :
    ¬ ∀ (SIZE : ObjectSize) (memory : Nat → UInt8) (locals : Nat → PduHeader) (n : Nat) (results : List RecvResult),
      let run := recvRounds locals n (SocketBuffer.new memory : SocketBuffer SIZE) results
      (∀ ev ∈ run, Guarded ev) ∧ Along HandsReceived run := by
  intro h
  have hrun := (h ⟨32, by decide⟩ (fun _ => 0) (fun _ => ⟨0, 0⟩) 1 [.closed]).1
  have hany : (recvRounds (fun _ => ⟨0, 0⟩) 1 (SocketBuffer.new (fun _ => 0) : SocketBuffer ⟨32, by decide⟩)
      [.closed]).any entersWithoutPdu := by decide +kernel
  obtain ⟨ev, hev, henters⟩ := List.any_eq_true.1 hany
  rcases ev with _ | ⟨ok, sb, hdr⟩ | _
  · cases henters
  · rw [(hrun _ hev).1] at henters
    cases henters
  · cases henters

/-- No `recv` is called with a frame pending, nor before the bodies of all the
frames that have arrived were run, if every `recv` that returns finds the buffer
empty and returns no two frames at once. -/
theorem arrived_frames_do_not_wait (SIZE : ObjectSize) (memory : Nat → UInt8) (locals : Nat → PduHeader) (n : Nat)
    (pdus : List Pdu) (pieces : List (List UInt8)) (hcut : pieces.flatten <+: framing.stream pdus) :
    let run := recvRounds locals n (SocketBuffer.new memory : SocketBuffer SIZE) (pieces.map .data)
    (∀ ev ∈ run, IntoEmpty ev ∧ AtMostOneFrame ev) → Along (WaitsForMore pdus) run := by
  intro run hrun
  have hin := recvRounds_inStep locals n (new_ready memory) rfl _ fun ev hev => (hrun ev hev).1
  exact hin.waitsForMore ((received_pieces locals n _ pieces).trans hcut) fun ev hev => (hrun ev hev).2

/-- The same two pieces: neither holds two frames. -/
theorem two_frames_and_a_start_awaited :
    Along (WaitsForMore [⟨1, [7], by decide⟩, ⟨2, [8], by decide⟩, ⟨3, [], by decide⟩])
      (recvRounds (fun _ => ⟨0, 0⟩) 3 (SocketBuffer.new (fun _ => 0) : SocketBuffer ⟨32, by decide⟩)
        ([[0, 0, 0, 1, 0, 1, 7], [0, 0, 0, 1, 0, 2, 8, 0]].map .data)) := by
  let sb : SocketBuffer ⟨32, by decide⟩ := SocketBuffer.new fun _ => 0
  have hshort : ∀ ev ∈ recvRounds (fun _ => ⟨0, 0⟩) 3 sb
      ([[0, 0, 0, 1, 0, 1, 7], [0, 0, 0, 1, 0, 2, 8, 0]].map .data), IntoEmpty ev ∧ Short ev := by decide +kernel
  exact arrived_frames_do_not_wait ⟨32, by decide⟩ (fun _ => 0) (fun _ => ⟨0, 0⟩) 3 _ _
    ⟨[0, 0, 0, 0, 3], by decide +kernel⟩ fun ev hev => ⟨(hshort ev hev).1, (hshort ev hev).2.atMostOneFrame⟩

/-- A `recv` is called with a frame pending. -/
def asksBehindFrame : Event SIZE → Bool
  | .recv sb _ => decide (HoldsFrame sb)
  | _ => false

/-- Two frames arrive together: the second one waits in the buffer while the
next round asks for more. -/
theorem coalesced_frame_waits :
    ¬ ∀ (SIZE : ObjectSize) (memory : Nat → UInt8) (locals : Nat → PduHeader) (n : Nat) (pdus : List Pdu)
      (pieces : List (List UInt8)), (∀ m ∈ pdus, (frame m).length ≤ SIZE.bytes) → (∀ p ∈ pieces, p ≠ []) →
      pieces.flatten = framing.stream pdus →
      Along (WaitsForMore pdus)
        (recvRounds locals n (SocketBuffer.new memory : SocketBuffer SIZE) (pieces.map .data)) := by
  intro h
  have hrun := h ⟨32, by decide⟩ (fun _ => 0) (fun _ => ⟨0, 0⟩) 2 [⟨1, [7], by decide⟩, ⟨2, [8], by decide⟩]
    [[0, 0, 0, 1, 0, 1, 7, 0, 0, 0, 1, 0, 2, 8]] (by decide) (by decide) (by decide +kernel)
  have hany : (recvRounds (fun _ => ⟨0, 0⟩) 2 (SocketBuffer.new (fun _ => 0) : SocketBuffer ⟨32, by decide⟩)
      ([[0, 0, 0, 1, 0, 1, 7, 0, 0, 0, 1, 0, 2, 8]].map .data)).any asksBehindFrame := by decide +kernel
  obtain ⟨ev, hev, hasks⟩ := List.any_eq_true.1 hany
  obtain ⟨pre, hwaits⟩ := hrun.of_mem hev
  rcases ev with ⟨sb, r⟩ | _ | _
  · exact hwaits.1 (of_decide_eq_true hasks)
  · cases hasks
  · cases hasks

end KSock.RecvPdu
