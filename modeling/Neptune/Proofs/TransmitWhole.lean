import Neptune.Proofs.MidiExact
import Neptune.Spec.CamdPorts

/-! One call of `nTransmit`, with no ActivateXmit meanwhile: all that the ports give is sent, and the buffer holds
it. A packet beyond the end of the buffer ends the run. -/

namespace Neptune.CamdMidi.Transmit

open List

open UsbMidiTx

open CamdPorts (txChunk txPullMax outbufSize fits)

/-- What a call of the hook gives, unless it gives nothing. -/
abbrev Chunk := {bs : List UInt8 // bs ≠ [] ∧ bs.length ≤ txChunk}

/-- A port on `nh_Ports`. `bound`: of this binding. `pulls`: what the hook will give; `last`: the last of them clears
`ca_TXActive`, which else the call after it does. -/
structure CAMDAdapter where
  portNum : UInt8
  bound : Bool
  txActive : Bool
  tx : UsbMidiTx
  pulls : List Chunk
  last : Bool

variable (outCables : ℕ)

namespace CAMDAdapter

variable (ca : CAMDAdapter)

def pullFromCAMD : List UInt8 × CAMDAdapter :=
  match ca.pulls with
  | [] => ([], { ca with txActive := false })
  | bs :: rest => (bs.1, { ca with pulls := rest, txActive := !(rest.isEmpty && ca.last) })

def bytes : List UInt8 := ca.pulls.flatMap Subtype.val

def due : Bool := ca.bound && ca.txActive

def packets : List Packet :=
  if ca.due = true ∧ ca.portNum.toNat < outCables then (nTxBytes ca.portNum ca.tx ca.bytes).2 else []

end CAMDAdapter

def append (out packets : List Packet) : Option (List Packet) :=
  if (out ++ packets).length * 4 ≤ outbufSize then some (out ++ packets) else none

def nPullPort (ca : CAMDAdapter) (out : List Packet) : Option (ℕ × CAMDAdapter × List Packet) :=
  let (tmp, ca) := ca.pullFromCAMD
  if ca.portNum.toNat < outCables then
    let next := nTxBytes ca.portNum ca.tx tmp
    (append out next.2).map fun out => (tmp.length, { ca with tx := next.1 }, out)
  else some (tmp.length, ca, out)

def nPullPorts : List CAMDAdapter → List Packet → Option (Bool × List CAMDAdapter × List Packet)
  | [], out => some (false, [], out)
  | ca :: rest, out =>
    if fits out then
      if ca.due then do
        let (num, ca, out) ← nPullPort outCables ca out
        let (got, rest, out) ← nPullPorts rest out
        return (num ≠ 0 || got, ca :: rest, out)
      else do
        let (got, rest, out) ← nPullPorts rest out
        return (got, ca :: rest, out)
    else some (false, ca :: rest, out)

def nTransmit : ℕ → List CAMDAdapter → List Packet → Option (List (List Packet) × List CAMDAdapter)
  | 0, _, _ => none
  | passes + 1, ports, out => do
    let (again, ports, out) ← nPullPorts outCables ports out
    let full := ¬ fits out ∨ again = false ∧ out ≠ []
    let sent := if full then [out] else []
    if again then
      let (later, ports) ← nTransmit passes ports (if full then [] else out)
      return (sent ++ later, ports)
    else return (sent, ports)

def Apart (ports : List CAMDAdapter) : Prop :=
  ports.Pairwise fun ca ca' => ca.bound = true → ca'.bound = true → ca.portNum ≠ ca'.portNum

structure Ports where
  list : List CAMDAdapter
  apart : Apart list

variable {tx : UsbMidiTx} {cable b : UInt8} {bs : List UInt8} {outCables}

def waits (tx : UsbMidiTx) : ℕ :=
  match tx.state with
  | .sysex1 | .sysex2 => 1
  | _ => 0

theorem waits_le (tx : UsbMidiTx) : waits tx ≤ 1 := by
  unfold waits
  split <;> omega

theorem nTxData_length : (tx.nTxData cable b).2.length + waits (tx.nTxData cable b).1 ≤ 1 + waits tx := by
  obtain ⟨state, status, data0, data1⟩ := tx
  unfold nTxData nTxMessage
  cases state <;> dsimp only <;> (try split_ifs) <;> simp [waits]

theorem nTxSysExCut_length : (tx.nTxSysExCut cable).length = waits tx := by
  unfold nTxSysExCut waits
  cases tx.state <;> rfl

theorem nTxSystem_length (tx : UsbMidiTx) (cable b : UInt8) :
    (tx.nTxSystem cable b).2.length + waits (tx.nTxSystem cable b).1 ≤ 1 := by
  unfold nTxSystem nTxSysExEnd
  split_ifs <;> simp only [waits, length_nil, length_singleton] <;> try omega
  cases tx.state <;> simp

/-- Amortised: a byte is worth a packet, and the one that waits brought its own. -/
theorem nTxByte_length (tx : UsbMidiTx) (cable b : UInt8) :
    (tx.nTxByte cable b).2.length + waits (tx.nTxByte cable b).1 ≤ 1 + waits tx := by
  have hsystem := nTxSystem_length tx cable b
  have hcut : (if b &&& 0x80 ≠ 0 ∧ b ≠ 0xf7 then tx.nTxSysExCut cable else []).length ≤ waits tx := by
    split_ifs
    · exact Nat.le_of_eq nTxSysExCut_length
    · exact Nat.zero_le _
  have hchannel : waits { tx with
      status := b
      state := if b &&& 0xf0 = 0xc0 ∨ b &&& 0xf0 = 0xd0 then .oneParam else .twoParam1 } = 0 := by
    split_ifs <;> rfl
  unfold nTxByte
  by_cases hrealtime : 0xf8 ≤ b
  · rw [if_pos hrealtime]
    exact Nat.le_refl _
  rw [if_neg hrealtime]
  by_cases hsys : 0xf0 ≤ b
  · simp only [if_pos hsys, length_append]
    omega
  by_cases hstatus : b &&& 0x80 ≠ 0
  · simp only [if_neg hsys, if_pos hstatus, length_append, length_nil, hchannel]
    omega
  · simp only [if_neg hsys, if_neg hstatus, if_neg fun h : _ ∧ _ => hstatus h.1, nil_append]
    exact nTxData_length

theorem nTxBytes_length (tx : UsbMidiTx) (cable : UInt8) (bs : List UInt8) :
    (nTxBytes cable tx bs).2.length + waits (nTxBytes cable tx bs).1 ≤ bs.length + waits tx := by
  induction bs generalizing tx with
  | nil => exact Nat.le_refl _
  | cons b bs ih =>
    have hbyte := nTxByte_length tx cable b
    have hrest := ih (tx.nTxByte cable b).1
    simp only [nTxBytes, length_append, length_cons]
    omega

theorem pull_bound (tx : UsbMidiTx) (cable : UInt8) (h : bs.length ≤ txChunk) : (nTxBytes cable tx bs).2.length * 4 ≤ txPullMax := by
  have hlen := nTxBytes_length tx cable bs
  have hwaits := waits_le tx
  unfold txPullMax
  omega

def Of (cable : UInt8) (packets : List Packet) : Prop := ∀ p ∈ packets, p.cable = cable

theorem of_one {cin b0 b1 b2 : UInt8} (hcable : cable < 16) (hcin : cin < 16) :
    Of cable [nTxPacket cable cin b0 b1 b2] :=
  forall_mem_singleton.mpr (cable_nTxPacket hcable hcin)

theorem of_nil : Of cable [] := fun _ hp => absurd hp not_mem_nil

theorem Of.append {xs ys : List Packet} (hx : Of cable xs) (hy : Of cable ys) : Of cable (xs ++ ys) := fun p hp =>
  (mem_append.mp hp).elim (hx p) (hy p)

theorem nTxData_of (hcable : cable < 16) : Of cable (tx.nTxData cable b).2 := by
  have hcin : tx.status >>> 4 < 16 := forall_byte (P := (· >>> 4 < 16)) (by decide +kernel) tx.status
  unfold nTxData nTxMessage
  split
  · split
    · exact of_one hcable hcin
    · exact of_one hcable (by decide)
  · exact of_nil
  · split
    · exact of_one hcable hcin
    · exact of_one hcable (by decide)
  · exact of_nil
  · exact of_nil
  · exact of_one hcable (by decide)
  · exact of_nil

theorem nTxSysExCut_of (hcable : cable < 16) : Of cable (tx.nTxSysExCut cable) := by
  unfold nTxSysExCut
  split
  · exact of_one hcable (by decide)
  · exact of_one hcable (by decide)
  · exact of_nil

theorem nTxSystem_of (hcable : cable < 16) : Of cable (tx.nTxSystem cable b).2 := by
  unfold nTxSystem nTxSysExEnd
  split_ifs
  · exact of_nil
  · exact of_nil
  · exact of_nil
  · exact of_one hcable (by decide)
  · split
    · exact of_one hcable (by decide)
    · exact of_one hcable (by decide)
    · exact of_one hcable (by decide)
    · exact of_nil
  · exact of_nil

theorem nTxByte_of (hcable : cable < 16) : Of cable (tx.nTxByte cable b).2 := by
  unfold nTxByte
  split
  · exact of_one hcable (by decide)
  · refine Of.append ?_ ?_
    · split
      · exact nTxSysExCut_of hcable
      · exact of_nil
    · split
      · exact nTxSystem_of hcable
      · split
        · exact of_nil
        · exact nTxData_of hcable

theorem nTxBytes_of (hcable : cable < 16) : Of cable (nTxBytes cable tx bs).2 := by
  induction bs generalizing tx with
  | nil => exact of_nil
  | cons b bs ih => exact (nTxByte_of hcable).append ih

variable {ca ca' : CAMDAdapter} {ports ports' : List CAMDAdapter} {out out' : List Packet}

structure Pulled (outCables : ℕ) (ca : CAMDAdapter) (num : ℕ) (ca' : CAMDAdapter) (new : List Packet) : Prop where
  same : ca'.portNum = ca.portNum ∧ ca'.bound = ca.bound
  packets : ca.packets outCables = new ++ ca'.packets outCables
  own : Of ca.portNum new
  least : num = 0 → new = [] ∧ ca'.pulls = [] ∧ ca.pulls = []
  less : num ≠ 0 → ca'.pulls.length < ca.pulls.length

theorem append_fits (hfits : fits out) (h : bs.length ≤ txChunk) :
    append out (nTxBytes cable tx bs).2 = some (out ++ (nTxBytes cable tx bs).2) := by
  have hpull := pull_bound tx cable h
  unfold fits at hfits
  refine if_pos ?_
  rw [length_append]
  simp only [txPullMax, txChunk, outbufSize] at *
  omega

theorem CAMDAdapter.pullFromCAMD_spec (ca : CAMDAdapter) (hdue : ca.due = true) :
    ∃ tmp, ca.pullFromCAMD.1 = tmp ∧ tmp.length ≤ txChunk ∧ ca.bytes = tmp ++ ca.pullFromCAMD.2.bytes ∧
      (ca.pullFromCAMD.2.due = false → ca.pullFromCAMD.2.pulls = []) ∧
      (tmp = [] → ca.pullFromCAMD.2.pulls = [] ∧ ca.pulls = []) ∧
      (tmp ≠ [] → ca.pullFromCAMD.2.pulls.length < ca.pulls.length) ∧
      ca.pullFromCAMD.2.portNum = ca.portNum ∧ ca.pullFromCAMD.2.bound = ca.bound ∧
      ca.pullFromCAMD.2.tx = ca.tx := by
  obtain ⟨hbound, -⟩ := Bool.and_eq_true_iff.mp hdue
  obtain ⟨portNum, bound, txActive, tx, pulls, last⟩ := ca
  cases pulls with
  | nil => exact ⟨[], rfl, Nat.zero_le _, rfl, fun _ => rfl, fun _ => ⟨rfl, rfl⟩, fun h => absurd rfl h, rfl, rfl, rfl⟩
  | cons bs rest =>
    refine ⟨bs.1, rfl, bs.2.2, flatMap_cons, fun h => ?_, fun h => absurd h bs.2.1, fun _ => Nat.lt_succ_self _,
      rfl, rfl, rfl⟩
    cases rest with
    | nil => rfl
    | cons bs' rest =>
      have hactive : (bound && !(false && last)) = false := h
      rw [show bound = true from hbound] at hactive
      exact absurd hactive (by simp)

theorem nPullPort_spec (hcables : outCables ≤ 16) (hfits : fits out) (hdue : ca.due = true) :
    ∃ num ca' new, nPullPort outCables ca out = some (num, ca', out ++ new) ∧ Pulled outCables ca num ca' new := by
  obtain ⟨tmp, htmp, hlen, hbytes, hover, hnone, hsome, hport, hbound, htx⟩ := ca.pullFromCAMD_spec hdue
  have hnum : tmp.length = 0 ↔ tmp = [] := length_eq_zero_iff
  unfold nPullPort
  dsimp only
  rw [htmp, hport, htx]
  by_cases hcable : ca.portNum.toNat < outCables
  · have hlt : ca.portNum < 16 := UInt8.lt_iff_toNat_lt.mpr (Nat.lt_of_lt_of_le hcable hcables)
    rw [if_pos hcable, append_fits hfits hlen]
    refine ⟨_, _, _, rfl, ⟨⟨rfl, hbound⟩, ?_, nTxBytes_of hlt, fun h => ?_, fun h => hsome (mt hnum.mpr h)⟩⟩
    · unfold CAMDAdapter.packets
      rw [if_pos ⟨hdue, hcable⟩, hbytes, nTxBytes_append]
      show _ ++ _ = _ ++ _
      congr 1
      by_cases hdue' : ca.pullFromCAMD.2.due = true
      · exact (if_pos ⟨hdue', hcable⟩).symm
      · have hnil : ca.pullFromCAMD.2.bytes = [] := by
          unfold CAMDAdapter.bytes
          rw [hover (Bool.eq_false_iff.mpr hdue'), flatMap_nil]
        rw [hnil]
        exact (if_neg fun h : _ ∧ _ => hdue' h.1).symm
    · obtain rfl := hnum.mp h
      exact ⟨rfl, hnone rfl⟩
  · rw [if_neg hcable]
    refine ⟨_, _, [], by rw [append_nil], ⟨⟨hport, hbound⟩, ?_, of_nil, fun h => ⟨rfl, hnone (hnum.mp h)⟩,
      fun h => hsome (mt hnum.mpr h)⟩⟩
    unfold CAMDAdapter.packets
    rw [if_neg fun h => hcable h.2, if_neg fun h => hcable (hport ▸ h.2), nil_append]

def owed (outCables : ℕ) (cable : UInt8) (ports : List CAMDAdapter) : List Packet :=
  (ports.filter (·.portNum = cable)).flatMap (·.packets outCables)

def left (ports : List CAMDAdapter) : ℕ := (ports.map (·.pulls.length)).sum

structure Passed (outCables : ℕ) (ports : List CAMDAdapter) (out : List Packet) (got : Bool)
    (ports' : List CAMDAdapter) (out' : List Packet) : Prop where
  same : ports'.map (fun ca => (ca.portNum, ca.bound)) = ports.map fun ca => (ca.portNum, ca.bound)
  owed : Apart ports → ∀ cable, out'.filter (·.cable = cable) ++ owed outCables cable ports' =
    out.filter (·.cable = cable) ++ owed outCables cable ports
  left : left ports' ≤ left ports
  less : got = true → Transmit.left ports' < Transmit.left ports
  idle : got = false → fits out → out' = out ∧ ∀ ca ∈ ports', ca.due = true → ca.pulls = []

theorem packets_unbound (h : ca.bound = false) : ca.packets outCables = [] :=
  if_neg fun hd => Bool.eq_false_iff.mp h (Bool.and_eq_true_iff.mp hd.1).1

theorem owed_nil (h : ∀ ca ∈ ports, ca.portNum = cable → ca.bound = false) : owed outCables cable ports = [] :=
  flatMap_eq_nil_iff.mpr fun ca hca =>
    packets_unbound (h ca (mem_of_mem_filter hca) (of_decide_eq_true (mem_filter.mp hca).2))

theorem owed_cons : owed outCables cable (ca :: ports) =
    (if ca.portNum = cable then ca.packets outCables else []) ++ owed outCables cable ports := by
  unfold owed
  by_cases h : ca.portNum = cable
  · simp [h]
  · simp [h]

theorem owed_done (h : ∀ ca ∈ ports, ca.due = true → ca.pulls = []) : owed outCables cable ports = [] := by
  refine flatMap_eq_nil_iff.mpr fun ca hca => ?_
  unfold CAMDAdapter.packets
  split
  · next hd =>
    unfold CAMDAdapter.bytes
    rw [h ca (mem_of_mem_filter hca) hd.1]
    rfl
  · rfl

theorem Apart.map (h : Apart ports)
    (hsame : ports'.map (fun ca => (ca.portNum, ca.bound)) = ports.map fun ca => (ca.portNum, ca.bound)) :
    Apart ports' := by
  have hp (l : List CAMDAdapter) := pairwise_map (f := fun ca : CAMDAdapter => (ca.portNum, ca.bound))
    (R := fun k k' => k.2 = true → k'.2 = true → k.1 ≠ k'.1) (l := l)
  refine (hp ports').mp ?_
  rw [hsame]
  exact (hp ports).mpr h

theorem nPullPorts_spec (hcables : outCables ≤ 16) (ports : List CAMDAdapter) (out : List Packet) :
    ∃ got ports' out', nPullPorts outCables ports out = some (got, ports', out') ∧
      Passed outCables ports out got ports' out' := by
  induction ports generalizing out with
  | nil => exact ⟨false, [], out, rfl, ⟨rfl, fun _ _ => rfl, Nat.le_refl _, nofun, fun _ _ => ⟨rfl, nofun⟩⟩⟩
  | cons ca rest ih =>
    unfold nPullPorts
    by_cases hfits : fits out
    · rw [if_pos hfits]
      by_cases hdue : ca.due = true
      · rw [if_pos hdue]
        obtain ⟨num, ca', new, hpull, hpulled⟩ := nPullPort_spec hcables hfits hdue
        obtain ⟨got, rest', out', hrest, hpass⟩ := ih (out ++ new)
        have hle : ca'.pulls.length ≤ ca.pulls.length := by
          by_cases hnum : num = 0
          · rw [(hpulled.least hnum).2.1]
            exact Nat.zero_le _
          · exact Nat.le_of_lt (hpulled.less hnum)
        rw [hpull]
        refine ⟨num ≠ 0 || got, ca' :: rest', out', by simp [hrest], ⟨?_, fun hapart cable => ?_, ?_, fun hgot => ?_,
          fun hgot _ => ?_⟩⟩
        · simp [hpass.same, hpulled.same]
        · obtain ⟨hhead, htail⟩ := pairwise_cons.mp hapart
          have howed := hpass.owed htail cable
          rw [owed_cons, owed_cons, hpulled.same.1]
          by_cases hport : ca.portNum = cable
          · have hbound := (Bool.and_eq_true_iff.mp hdue).1
            have hnone : ∀ l : List CAMDAdapter, l.map (fun ca => (ca.portNum, ca.bound)) =
                rest.map (fun ca => (ca.portNum, ca.bound)) → owed outCables cable l = [] := fun l hl => by
              refine owed_nil fun other hother heq => Bool.eq_false_iff.mpr fun hb => ?_
              have hmem : (other.portNum, other.bound) ∈ rest.map fun ca => (ca.portNum, ca.bound) :=
                hl ▸ mem_map_of_mem hother
              obtain ⟨ca₀, hca₀, hkey⟩ := mem_map.mp hmem
              obtain ⟨hnum, hb₀⟩ := Prod.mk.inj hkey
              exact hhead ca₀ hca₀ hbound (hb₀.trans hb) (hport.trans (heq.symm.trans hnum.symm))
            have hnew : new.filter (·.cable = cable) = new :=
              filter_eq_self.mpr fun p hp => decide_eq_true ((hpulled.own p hp).trans hport)
            rw [hnone _ hpass.same, hnone _ rfl, append_nil, append_nil, filter_append, hnew] at howed
            rw [if_pos hport, if_pos hport, hnone _ hpass.same, hnone _ rfl, howed, hpulled.packets]
            simp only [append_nil, append_assoc]
          · have hnew : new.filter (·.cable = cable) = [] :=
              filter_eq_nil_iff.mpr fun p hp => by simpa [hpulled.own p hp] using hport
            rw [filter_append, hnew, append_nil] at howed
            rwa [if_neg hport, if_neg hport]
        · exact Nat.add_le_add hle hpass.left
        · by_cases hnum : num = 0
          · exact Nat.add_lt_add_of_le_of_lt hle (hpass.less (by simpa [hnum] using hgot))
          · exact Nat.add_lt_add_of_lt_of_le (hpulled.less hnum) hpass.left
        · obtain ⟨hnum, hgot⟩ := Bool.or_eq_false_iff.mp hgot
          obtain ⟨rfl, hnil, -⟩ := hpulled.least (by simpa using hnum)
          rw [append_nil] at hpass
          obtain ⟨hout, hidle⟩ := hpass.idle hgot hfits
          exact ⟨hout, forall_mem_cons.mpr ⟨fun _ => hnil, hidle⟩⟩
      · rw [if_neg hdue]
        obtain ⟨got, rest', out', hrest, hpass⟩ := ih out
        refine ⟨got, ca :: rest', out', by simp [hrest], ⟨?_, fun hapart cable => ?_, ?_, fun hgot => ?_,
          fun hgot _ => ?_⟩⟩
        · simp [hpass.same]
        · have hnone : ca.packets outCables = [] := if_neg fun h => hdue h.1
          rw [owed_cons, owed_cons, hnone, ite_self]
          exact hpass.owed (pairwise_cons.mp hapart).2 cable
        · exact Nat.add_le_add_left hpass.left _
        · exact Nat.add_lt_add_left (hpass.less hgot) _
        · obtain ⟨hout, hidle⟩ := hpass.idle hgot hfits
          exact ⟨hout, forall_mem_cons.mpr ⟨fun hd => absurd hd hdue, hidle⟩⟩
    · rw [if_neg hfits]
      exact ⟨false, ca :: rest, out, rfl, ⟨rfl, fun _ _ => rfl, Nat.le_refl _, nofun, fun _ h => absurd h hfits⟩⟩

structure Sent (outCables : ℕ) (ports : List CAMDAdapter) (out : List Packet) (sent : List (List Packet))
    (ports' : List CAMDAdapter) : Prop where
  whole : ∀ cable, sent.flatten.filter (·.cable = cable) = out.filter (·.cable = cable) ++ owed outCables cable ports
  none_left : ∀ ca ∈ ports', ca.due = true → ca.pulls = []

theorem nTransmit_spec (hcables : outCables ≤ 16) (ports : List CAMDAdapter) (out : List Packet) (n : ℕ)
    (hn : left ports = n) (hapart : Apart ports) (hfits : fits out) : ∃ sent ports',
    (∀ passes, n < passes → nTransmit outCables passes ports out = some (sent, ports')) ∧
      Sent outCables ports out sent ports' := by
  induction n using Nat.strongRecOn generalizing ports out with
  | ind n ih =>
    obtain ⟨again, ports', out', hpass, hpassed⟩ := nPullPorts_spec hcables ports out
    have howed := hpassed.owed hapart
    cases again with
    | true =>
      by_cases hfull : ¬ fits out'
      · obtain ⟨later, rest, hrun, hsent⟩ := ih _ (hn ▸ hpassed.less rfl) ports' [] rfl
          (hapart.map hpassed.same) (Nat.zero_le _)
        refine ⟨out' :: later, rest, fun passes hlt => ?_, ⟨fun cable => ?_, hsent.none_left⟩⟩
        · cases passes with
          | zero => omega
          | succ passes =>
            have hless := hpassed.less rfl
            simp [nTransmit, hpass, hfull, hrun passes (by omega)]
        · rw [flatten_cons, filter_append, hsent.whole cable, ← howed cable]
          rfl
      · obtain ⟨later, rest, hrun, hsent⟩ := ih _ (hn ▸ hpassed.less rfl) ports' out' rfl
          (hapart.map hpassed.same) (Decidable.not_not.mp hfull)
        refine ⟨later, rest, fun passes hlt => ?_, ⟨fun cable => ?_, hsent.none_left⟩⟩
        · cases passes with
          | zero => omega
          | succ passes =>
            have hless := hpassed.less rfl
            simp [nTransmit, hpass, Decidable.not_not.mp hfull, hrun passes (by omega)]
        · rw [hsent.whole cable, ← howed cable]
    | false =>
      obtain ⟨rfl, hidle⟩ := hpassed.idle rfl hfits
      refine ⟨if out' ≠ [] then [out'] else [], ports', fun passes hlt => ?_, ⟨fun cable => ?_, hidle⟩⟩
      · cases passes with
        | zero => omega
        | succ passes => simp [nTransmit, hpass, hfits]
      · rw [← howed cable, owed_done hidle, append_nil]
        by_cases hout : out' = []
        · simp [hout]
        · simp [hout]

theorem owed_own (hapart : Apart ports) (hca : ca ∈ ports) (hdue : ca.due = true)
    (hcable : ca.portNum.toNat < outCables) :
    owed outCables ca.portNum ports = (nTxBytes ca.portNum ca.tx ca.bytes).2 := by
  have hbound := (Bool.and_eq_true_iff.mp hdue).1
  obtain ⟨before, behind, rfl⟩ := append_of_mem hca
  obtain ⟨-, hbehind, hbefore⟩ := pairwise_append.mp hapart
  have hnone : owed outCables ca.portNum before = [] := owed_nil fun other hother heq =>
    Bool.eq_false_iff.mpr fun hb => hbefore other hother ca mem_cons_self hb hbound heq
  have hnone' : owed outCables ca.portNum behind = [] := owed_nil fun other hother heq =>
    Bool.eq_false_iff.mpr fun hb => (pairwise_cons.mp hbehind).1 other hother hbound hb heq.symm
  have happend : owed outCables ca.portNum (before ++ ca :: behind) =
      owed outCables ca.portNum before ++ owed outCables ca.portNum (ca :: behind) := by
    unfold owed
    rw [filter_append, flatMap_append]
  rw [happend, owed_cons, hnone, hnone', if_pos rfl, nil_append, append_nil]
  exact if_pos ⟨hdue, hcable⟩

/-- The call ends, whatever is queued and however it is cut; no packet was beyond the buffer. -/
theorem transmit_whole (jacks : Option ℕ) (ports : Ports) :
    ∃ sent ports', (∃ n, ∀ passes, n < passes →
        nTransmit (nCableCount jacks) passes ports.list [] = some (sent, ports')) ∧
      (∀ ca ∈ ports', ca.due = true → ca.pulls = []) ∧
      (∀ ca ∈ ports.list, ca.due = true → ca.portNum.toNat < nCableCount jacks →
        sent.flatten.filter (·.cable = ca.portNum) = (nTxBytes ca.portNum ca.tx ca.bytes).2) ∧
      (∀ p ∈ sent.flatten, ∃ ca ∈ ports.list, ca.due = true ∧ ca.portNum.toNat < nCableCount jacks ∧
        p.cable = ca.portNum) ∧
      ∀ (cable : UInt8) (tx : UsbMidiTx) (chunk : Chunk), (nTxBytes cable tx chunk.1).2.length * 4 ≤ txPullMax := by
  obtain ⟨sent, ports', hrun, hsent⟩ := nTransmit_spec (nCableCount_le jacks) ports.list [] _ rfl ports.apart
    (Nat.zero_le _)
  refine ⟨sent, ports', ⟨_, hrun⟩, hsent.none_left, fun ca hca hdue hcable => ?_, fun p hp => ?_, fun cable tx chunk =>
    pull_bound tx cable chunk.2.2⟩
  · rw [hsent.whole, filter_nil, nil_append, owed_own ports.apart hca hdue hcable]
  · have hmem : p ∈ sent.flatten.filter (·.cable = p.cable) := mem_filter.mpr ⟨hp, decide_eq_true rfl⟩
    rw [hsent.whole, filter_nil, nil_append] at hmem
    obtain ⟨ca, hca, hpackets⟩ := mem_flatMap.mp hmem
    obtain ⟨hca, hcable⟩ := mem_filter.mp hca
    unfold CAMDAdapter.packets at hpackets
    split at hpackets
    · next h => exact ⟨ca, hca, h.1, h.2, (of_decide_eq_true hcable).symm⟩
    · exact absurd hpackets not_mem_nil

end Neptune.CamdMidi.Transmit
