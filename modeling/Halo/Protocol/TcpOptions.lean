import Halo.Protocol.Tcp

/-!
# The options of TCP segments (`protocol/tcp.go`)

The walk of `ParseTcpPkt` over the option area accepts a grammar: options of one byte (NOP), MSS
options and others with a length, up to the end of the header or to an end-of-list byte, behind
which anything may follow.

* `TcpOption`, `OptionArea`: the grammar. An option carries the proof that it is well formed.
* `parseTcpOptions_option`, `exists_option`: a round of the walk that goes on has passed one option.
* `parseTcpOptions_ok_iff`: the walk succeeds on the areas of the grammar.
* `parseTcpPktChecked`: the parser with the bounds checks of the language, where a read outside of
  the packet and a loop that does not end are faults. It never faults (`parseTcpPktChecked_eq`).
-/

namespace Halo

open List

theorem be16_ofBe16 (hi lo : UInt8) : be16 (ofBe16 hi lo) = [hi, lo] := by
  have h := hi.toNat_lt
  have l := lo.toNat_lt
  have hhi : (ofBe16 hi lo >>> 8).toUInt8 = hi := by
    apply UInt8.toNat_inj.mp
    simp only [UInt16.toNat_toUInt8, UInt16.toNat_shiftRight, ofBe16_toNat, UInt16.reduceToNat,
      Nat.reduceMod, Nat.shiftRight_eq_div_pow]
    omega
  have hlo : (ofBe16 hi lo).toUInt8 = lo := by
    apply UInt8.toNat_inj.mp
    rw [UInt16.toNat_toUInt8, ofBe16_toNat]
    omega
  rw [be16, hhi, hlo]

/-! ## The grammar -/

/-- A well-formed option, apart from end-of-list. -/
inductive TcpOption where
  | nop
  | mss (value : UInt16) (hvalue : value ≠ 0)
  | other (kind : UInt8) (data : Bytes) (hkind : kind ≠ 0 ∧ kind ≠ 1 ∧ kind ≠ 2)
      (hlen : data.length + 2 < 256)

namespace TcpOption

/-- The option in the header. -/
def bytes : TcpOption → Bytes
  | nop => [1]
  | mss value _ => 2 :: 4 :: be16 value
  | other kind data _ _ => kind :: UInt8.ofNat (data.length + 2) :: data

/-- The value of an MSS option. -/
def mssValue : TcpOption → Option UInt16
  | mss value _ => some value
  | _ => none

end TcpOption

/-- The bytes are the options, then nothing or an end-of-list byte and anything. -/
inductive OptionArea : Bytes → List TcpOption → Prop
  | done : OptionArea [] []
  | endOfList (rest : Bytes) : OptionArea (0 :: rest) []
  | cons (o : TcpOption) {rest : Bytes} {os : List TcpOption} (h : OptionArea rest os) :
      OptionArea (o.bytes ++ rest) (o :: os)

/-- The value of the last MSS option, `0` without one. -/
def lastMss (os : List TcpOption) : UInt16 := ((os.filterMap TcpOption.mssValue).getLast?).getD 0

/-- The MSS after an option: the SYN flag makes the option count. -/
def mssAfter (flags : UInt8) (mss : UInt16) (o : TcpOption) : UInt16 :=
  if flags &&& tcpFlagsSyn ≠ 0 then o.mssValue.getD mss else mss

theorem foldl_mssAfter (flags : UInt8) (os : List TcpOption) (mss : UInt16) :
    os.foldl (mssAfter flags) mss =
      if flags &&& tcpFlagsSyn ≠ 0 then ((os.filterMap TcpOption.mssValue).getLast?).getD mss
        else mss := by
  induction os generalizing mss with
  | nil => simp
  | cons o os ih =>
    rw [foldl_cons, ih, mssAfter]
    split
    · cases ho : o.mssValue with
      | none => simp [ho]
      | some v => simp [ho, getLast?_cons]
    · rfl

/-! ## One round -/

section

variable {pkt rest : Bytes} {headerLen fuel offset : Nat} {mss : UInt16}

/-- The header from the offset on, with its first byte. -/
theorem header_drop (hlen : headerLen ≤ pkt.length) (h : offset < headerLen) :
    (pkt.take headerLen).drop offset =
      byteAt pkt offset :: (pkt.take headerLen).drop (offset + 1) := by
  have hlt : offset < (pkt.take headerLen).length := by simp; omega
  rw [drop_eq_getElem_cons hlt, ← byteAt_eq_getElem hlt, byteAt_take h]

variable {area : Bytes}

theorem byteAt_header (harea : (pkt.take headerLen).drop offset = area) {j : Nat}
    (hj : offset + j < headerLen) : byteAt pkt (offset + j) = byteAt area j := by
  rw [← harea, byteAt_drop, byteAt_take hj]

theorem length_header (hlen : headerLen ≤ pkt.length) (hle : offset ≤ headerLen)
    (harea : (pkt.take headerLen).drop offset = area) : offset + area.length = headerLen := by
  rw [← harea, length_drop, length_take]
  omega

/-- A round at an option moves on behind it. -/
theorem parseTcpOptions_option (hlen : headerLen ≤ pkt.length) (o : TcpOption)
    (harea : (pkt.take headerLen).drop offset = o.bytes ++ rest) :
    parseTcpOptions pkt headerLen (fuel + 1) offset mss =
      parseTcpOptions pkt headerLen fuel (offset + o.bytes.length)
        (mssAfter (byteAt pkt 13) mss o) := by
  have hne : o.bytes ≠ [] := by cases o <;> simp [TcpOption.bytes]
  have hlt : offset < headerLen := by
    by_contra hge
    rw [drop_eq_nil_of_le (by simp; omega)] at harea
    exact hne (append_eq_nil_iff.mp harea.symm).1
  have hend := length_header hlen hlt.le harea
  have hkind := byteAt_header (j := 0) harea hlt
  rw [length_append] at hend
  rw [parseTcpOptions, if_neg (by omega)]
  cases o with
  | nop =>
    have hone : byteAt pkt offset = 1 := hkind
    simp [hone, TcpOption.bytes, mssAfter, TcpOption.mssValue]
  | mss value hvalue =>
    have hend : offset + (4 + rest.length) = headerLen := hend
    have htwo : byteAt pkt offset = 2 := hkind
    have hfour : byteAt pkt (offset + 1) = 4 := byteAt_header harea (by omega)
    have hword : wordAt pkt (offset + 2) = value := by
      rw [wordAt, byteAt_header (j := 2) harea (by omega), byteAt_header (j := 3) harea (by omega)]
      exact ofBe16_be16 value
    have hfits :
        ¬ (offset + 2 > headerLen ∨ (4 : UInt8).toNat < 2 ∨
          offset + (4 : UInt8).toNat > headerLen) := by
      simp
      omega
    simp only [htwo, hfour, hword, if_neg hfits]
    simp [hvalue, TcpOption.bytes, be16, mssAfter, TcpOption.mssValue]
  | other kind data hother hdata =>
    have hend : offset + (data.length + 2 + rest.length) = headerLen := hend
    have hk : byteAt pkt offset = kind := hkind
    have hlength : (byteAt pkt (offset + 1)).toNat = data.length + 2 := by
      rw [byteAt_header harea (by omega)]
      exact UInt8.toNat_ofNat_of_lt' hdata
    have hfits :
        ¬ (offset + 2 > headerLen ∨ data.length + 2 < 2 ∨
          offset + (data.length + 2) > headerLen) := by
      omega
    obtain ⟨hzero, hone, htwo⟩ := hother
    simp only [hk, hlength, if_neg hzero, if_neg hone, if_neg htwo, if_neg hfits]
    simp [TcpOption.bytes, mssAfter, TcpOption.mssValue]

theorem header_drop_behind (harea : (pkt.take headerLen).drop offset = area ++ rest) :
    (pkt.take headerLen).drop (offset + area.length) = rest := by
  rw [← drop_drop, harea, drop_left]

/-- A round that does not stop and does not fail is at an option. -/
theorem exists_option (hlen : headerLen ≤ pkt.length) (hlt : offset < headerLen)
    (hkind : byteAt pkt offset ≠ 0) {r : UInt16}
    (h : parseTcpOptions pkt headerLen (fuel + 1) offset mss = .ok r) :
    ∃ (o : TcpOption) (rest : Bytes), (pkt.take headerLen).drop offset = o.bytes ++ rest := by
  rw [parseTcpOptions, if_neg (by omega)] at h
  dsimp only at h
  rw [if_neg hkind] at h
  by_cases hone : byteAt pkt offset = 1
  · exact ⟨.nop, (pkt.take headerLen).drop (offset + 1), by rw [header_drop hlen hlt, hone]; rfl⟩
  rw [if_neg hone] at h
  split at h
  · cases h
  rename_i hfits
  rw [not_or, not_or, not_lt, not_lt, not_lt] at hfits
  obtain ⟨htwo, hmin, hmax⟩ := hfits
  by_cases hmss : byteAt pkt offset = 2
  · rw [if_pos hmss] at h
    split at h
    · cases h
    rename_i hvalue
    rw [not_or, not_not] at hvalue
    obtain ⟨hlength, hvalue⟩ := hvalue
    have hfour : byteAt pkt (offset + 1) = 4 := UInt8.toNat_inj.mp hlength
    refine ⟨.mss (wordAt pkt (offset + 2)) hvalue, (pkt.take headerLen).drop (offset + 4), ?_⟩
    rw [header_drop hlen hlt, header_drop hlen (show offset + 1 < headerLen by omega),
      header_drop hlen (show offset + 1 + 1 < headerLen by omega),
      header_drop hlen (show offset + 1 + 1 + 1 < headerLen by omega), hmss, hfour,
        TcpOption.bytes, wordAt,
      be16_ofBe16]
    rfl
  · have hdata :
      (((pkt.take headerLen).drop (offset + 2)).take ((byteAt pkt (offset + 1)).toNat - 2)).length =
        (byteAt pkt (offset + 1)).toNat - 2 := by
      simp only [length_take, length_drop]
      omega
    have hbyte := (byteAt pkt (offset + 1)).toNat_lt
    refine ⟨.other (byteAt pkt offset)
      (((pkt.take headerLen).drop (offset + 2)).take ((byteAt pkt (offset + 1)).toNat - 2))
      ⟨hkind, hone, hmss⟩ (by omega),
        (pkt.take headerLen).drop (offset + (byteAt pkt (offset + 1)).toNat), ?_⟩
    have hbehind : (pkt.take headerLen).drop (offset + (byteAt pkt (offset + 1)).toNat) =
        ((pkt.take headerLen).drop (offset + 2)).drop ((byteAt pkt (offset + 1)).toNat - 2) := by
      rw [drop_drop]
      congr 1
      omega
    rw [TcpOption.bytes, hdata, Nat.sub_add_cancel hmin, UInt8.ofNat_toNat, cons_append,
      cons_append, hbehind, take_append_drop, header_drop hlen hlt,
      header_drop hlen (show offset + 1 < headerLen by omega)]

end

/-! ## The walk -/

variable {pkt : Bytes} {headerLen : Nat}

variable {fuel offset i : Nat}

/-- The walk over an area of the grammar. The induction is on the options; the fuel covers the rest
of the header. -/
theorem parseTcpOptions_area (hlen : headerLen ≤ pkt.length) {area : Bytes} {os : List TcpOption}
    (h : OptionArea area os) (hfuel : headerLen ≤ offset + fuel)
    (hle : offset ≤ headerLen) (harea : (pkt.take headerLen).drop offset = area) (mss : UInt16) :
    parseTcpOptions pkt headerLen fuel offset mss =
      .ok (os.foldl (mssAfter (byteAt pkt 13)) mss) := by
  induction h generalizing fuel offset mss with
  | done =>
    have hend := length_header hlen hle harea
    cases fuel with
    | zero => rfl
    | succ fuel => rw [parseTcpOptions, if_pos (by simpa using hend.ge)]; rfl
  | endOfList rest =>
    have hend := length_header hlen hle harea
    rw [length_cons] at hend
    obtain _ | fuel := fuel
    · omega
    · have hzero : byteAt pkt offset = 0 := byteAt_header (j := 0) harea (by omega)
      rw [parseTcpOptions, if_neg (by omega)]
      dsimp only
      rw [if_pos hzero]
      rfl
  | cons o h ih =>
    have hend := length_header hlen hle harea
    have hpos : 0 < o.bytes.length := by cases o <;> simp [TcpOption.bytes]
    rw [length_append] at hend
    obtain _ | fuel := fuel
    · omega
    · rw [parseTcpOptions_option hlen o harea, foldl_cons]
      exact ih (by omega) (by omega) (header_drop_behind harea) _

/-- A walk that succeeds is over an area of the grammar. -/
theorem exists_area (hlen : headerLen ≤ pkt.length) {mss r : UInt16}
    (hfuel : headerLen ≤ offset + fuel) (hle : offset ≤ headerLen)
    (h : parseTcpOptions pkt headerLen fuel offset mss = .ok r) :
    ∃ os, OptionArea ((pkt.take headerLen).drop offset) os := by
  induction fuel generalizing offset mss with
  | zero =>
    rw [drop_eq_nil_of_le (by simp; omega)]
    exact ⟨[], .done⟩
  | succ fuel ih =>
    by_cases hlt : offset < headerLen
    · by_cases hzero : byteAt pkt offset = 0
      · rw [header_drop hlen hlt, hzero]
        exact ⟨[], .endOfList _⟩
      · obtain ⟨o, rest, harea⟩ := exists_option hlen hlt hzero h
        have hend := length_header hlen hle harea
        have hpos : 0 < o.bytes.length := by cases o <;> simp [TcpOption.bytes]
        rw [length_append] at hend
        rw [parseTcpOptions_option hlen o harea] at h
        obtain ⟨os, hos⟩ := ih (by omega) (by omega) h
        rw [header_drop_behind harea] at hos
        exact ⟨o :: os, harea ▸ .cons o hos⟩
    · rw [drop_eq_nil_of_le (by simp; omega)]
      exact ⟨[], .done⟩

theorem parseTcpOptions_ok_iff (hlen : headerLen ≤ pkt.length) (hle : 20 ≤ headerLen) (r : UInt16) :
    parseTcpOptions pkt headerLen headerLen 20 0 = .ok r ↔
      ∃ os, OptionArea ((pkt.take headerLen).drop 20) os ∧
        r = if byteAt pkt 13 &&& tcpFlagsSyn ≠ 0 then lastMss os else 0 := by
  constructor
  · intro h
    obtain ⟨os, hos⟩ := exists_area hlen (by omega) hle h
    rw [parseTcpOptions_area hlen hos (by omega) hle rfl, foldl_mssAfter] at h
    exact ⟨os, hos, (Except.ok.inj h).symm⟩
  · rintro ⟨os, hos, rfl⟩
    rw [parseTcpOptions_area hlen hos (by omega) hle rfl, foldl_mssAfter]
    rfl

/-! ## Reads inside of the packet -/

/-- What stops the code apart from its errors: an index outside of the packet, or a loop that goes
on. -/
inductive ReadFault where
  | outOfRange
  | outOfFuel

/-- `pkt[i]`. -/
def readByte (pkt : Bytes) (i : Nat) : Except ReadFault UInt8 :=
  if i < pkt.length then .ok (byteAt pkt i) else .error .outOfRange

/-- The big-endian number of `pkt[i:i+2]`. -/
def readWord (pkt : Bytes) (i : Nat) : Except ReadFault UInt16 :=
  if i + 2 ≤ pkt.length then .ok (wordAt pkt i) else .error .outOfRange

/-- The big-endian number of the four bytes from `i` on. -/
def readU32 (pkt : Bytes) (i : Nat) : Except ReadFault UInt32 :=
  if i + 4 ≤ pkt.length then .ok (u32At pkt i) else .error .outOfRange

/-- `pkt[i:]`. -/
def readFrom (pkt : Bytes) (i : Nat) : Except ReadFault Bytes :=
  if i ≤ pkt.length then .ok (pkt.drop i) else .error .outOfRange

/-- The loop of `ParseTcpPkt` over the options, with the reads in the order of the code. -/
def parseTcpOptionsChecked (pkt : Bytes) (headerLen : Nat) (flags : UInt8) :
    (fuel : Nat) → (offset : Nat) → (mss : UInt16) → Except ReadFault (Except String UInt16)
  | 0, _, _ => .error .outOfFuel
  | fuel + 1, offset, mss =>
    if headerLen ≤ offset then .ok (.ok mss)
    else do
      let kind ← readByte pkt offset
      if kind = 0 then .ok (.ok mss)
      else if kind = 1 then parseTcpOptionsChecked pkt headerLen flags fuel (offset + 1) mss
      else if offset + 2 > headerLen then .ok (.error "invalid tcp option length")
      else
        let length ← readByte pkt (offset + 1)
        if length.toNat < 2 ∨ offset + length.toNat > headerLen then
          .ok (.error "invalid tcp option length")
        else if kind = 2 then
          if length.toNat ≠ 4 then .ok (.error "invalid tcp mss option")
          else
            let value ← readWord pkt (offset + 2)
            if value = 0 then .ok (.error "invalid tcp mss option")
            else
              parseTcpOptionsChecked pkt headerLen flags fuel (offset + length.toNat)
                (if flags &&& tcpFlagsSyn ≠ 0 then value else mss)
        else parseTcpOptionsChecked pkt headerLen flags fuel (offset + length.toNat) mss

/-- `ParseTcpPkt` with the bounds checks of its reads. -/
def parseTcpPktChecked (checkSumEnable : Bool) (pkt : Bytes) (addr : Ipv4AddrPair) :
    Except ReadFault (Except String TcpPkt) :=
  if pkt.length < 20 ∨ pkt.length > 1480 then
    .ok (.error "tcp packet len must >= 20 and <= 1480 bytes")
  else do
    let srcPort ← readWord pkt 0
    let dstPort ← readWord pkt 2
    let seqNum ← readU32 pkt 4
    let ackNum ← readU32 pkt 8
    let dataOffset ← readByte pkt 12
    let headerLen := (dataOffset >>> 4).toNat * 4
    if headerLen < 20 ∨ headerLen > pkt.length then .ok (.error "invalid tcp header length")
    else
      let flags ← readByte pkt 13
      let window ← readWord pkt 14
      match ← parseTcpOptionsChecked pkt headerLen flags headerLen 20 0 with
      | .error e => .ok (.error e)
      | .ok mss =>
        if checkSumEnable ∧ getCheckSum (pseudoHeader addr 0x06 (UInt16.ofNat pkt.length) ++ pkt) ≠
            0 then
          .ok (.error "check sum error")
        else
          let payload ← readFrom pkt headerLen
          .ok (.ok ⟨payload, srcPort, dstPort, seqNum, ackNum, flags, window, mss⟩)

theorem readByte_eq (h : i < pkt.length) : readByte pkt i = .ok (byteAt pkt i) := if_pos h

theorem readWord_eq (h : i + 2 ≤ pkt.length) : readWord pkt i = .ok (wordAt pkt i) := if_pos h

theorem readU32_eq (h : i + 4 ≤ pkt.length) : readU32 pkt i = .ok (u32At pkt i) := if_pos h

theorem readFrom_eq (h : i ≤ pkt.length) : readFrom pkt i = .ok (pkt.drop i) := if_pos h

@[simp] theorem ReadFault.ok_bind {α β : Type} (a : α) (f : α → Except ReadFault β) :
    (Except.ok a >>= f) = f a := rfl

/-- The walk ends and reads inside of the packet. -/
theorem parseTcpOptionsChecked_eq (hlen : headerLen ≤ pkt.length)
    (hfuel : headerLen < offset + fuel) (hle : offset ≤ headerLen) (mss : UInt16) :
    parseTcpOptionsChecked pkt headerLen (byteAt pkt 13) fuel offset mss =
      .ok (parseTcpOptions pkt headerLen fuel offset mss) := by
  induction fuel generalizing offset mss with
  | zero => omega
  | succ fuel ih =>
    rw [parseTcpOptionsChecked, parseTcpOptions]
    by_cases hlt : headerLen ≤ offset
    · rw [if_pos hlt, if_pos hlt]
    rw [if_neg hlt, if_neg hlt, readByte_eq (by omega), ReadFault.ok_bind]
    dsimp only
    split
    · rfl
    split
    · exact ih (by omega) (by omega) mss
    -- the length byte is read after the first test, the value after the test of the length
    by_cases htwo : offset + 2 > headerLen
    · rw [if_pos htwo, if_pos (.inl htwo)]
    rw [if_neg htwo, readByte_eq (by omega), ReadFault.ok_bind]
    by_cases hbad : (byteAt pkt (offset + 1)).toNat < 2 ∨
      offset + (byteAt pkt (offset + 1)).toNat > headerLen
    · rw [if_pos hbad, if_pos (.inr hbad)]
    rw [if_neg hbad, if_neg (not_or.mpr ⟨htwo, hbad⟩)]
    split
    · by_cases hfour : (byteAt pkt (offset + 1)).toNat ≠ 4
      · rw [if_pos hfour, if_pos (.inl hfour)]
      rw [if_neg hfour, readWord_eq (by omega), ReadFault.ok_bind]
      by_cases hzero : wordAt pkt (offset + 2) = 0
      · rw [if_pos hzero, if_pos (.inr hzero)]
      rw [if_neg hzero, if_neg (not_or.mpr ⟨hfour, hzero⟩)]
      exact ih (by omega) (by omega) _
    · exact ih (by omega) (by omega) mss

/-- No read of the parser is outside of the packet. -/
theorem parseTcpPktChecked_eq (checkSumEnable : Bool) (pkt : Bytes) (addr : Ipv4AddrPair) :
    parseTcpPktChecked checkSumEnable pkt addr = .ok (parseTcpPkt checkSumEnable pkt addr) := by
  rw [parseTcpPktChecked, parseTcpPkt]
  split
  · rfl
  rename_i hlen
  rw [not_or, not_lt, not_lt] at hlen
  rw [readWord_eq (by omega), readWord_eq (by omega), readU32_eq (by omega), readU32_eq (by omega),
    readByte_eq (by omega)]
  simp only [ReadFault.ok_bind]
  rw [show (byteAt pkt 12 >>> 4).toNat * 4 = tcpHeaderLen pkt from rfl]
  split
  · rfl
  rename_i hheader
  rw [not_or, not_lt, not_lt] at hheader
  rw [readByte_eq (by omega), readWord_eq (by omega), ReadFault.ok_bind, ReadFault.ok_bind,
    parseTcpOptionsChecked_eq hheader.2 (by omega) hheader.1, ReadFault.ok_bind]
  cases parseTcpOptions pkt (tcpHeaderLen pkt) (tcpHeaderLen pkt) 20 0 with
  | error e => rfl
  | ok mss =>
    dsimp only
    split
    · rfl
    · rw [readFrom_eq hheader.2]
      rfl

/-! ## The parser -/

/-- The segment that the parser returns, with the given MSS. -/
def tcpFields (pkt : Bytes) (mss : UInt16) : TcpPkt :=
  ⟨pkt.drop (tcpHeaderLen pkt), wordAt pkt 0, wordAt pkt 2, u32At pkt 4, u32At pkt 8, byteAt pkt 13,
    wordAt pkt 14, mss⟩

/-- Without checksums the outcome is that of the length tests and of the walk. -/
theorem parseTcpPkt_false_ok_iff (pkt : Bytes) (addr : Ipv4AddrPair) (result : TcpPkt) :
    parseTcpPkt false pkt addr = .ok result ↔
      (20 ≤ pkt.length ∧ pkt.length ≤ 1480) ∧
        (20 ≤ tcpHeaderLen pkt ∧ tcpHeaderLen pkt ≤ pkt.length) ∧
      ∃ mss, parseTcpOptions pkt (tcpHeaderLen pkt) (tcpHeaderLen pkt) 20 0 = .ok mss ∧
        result = tcpFields pkt mss := by
  rw [parseTcpPkt]
  by_cases hlen : pkt.length < 20 ∨ pkt.length > 1480
  · rw [if_pos hlen]
    refine ⟨nofun, fun h => ?_⟩
    omega
  rw [if_neg hlen]
  dsimp only
  by_cases hheader : tcpHeaderLen pkt < 20 ∨ tcpHeaderLen pkt > pkt.length
  · rw [if_pos hheader]
    refine ⟨nofun, fun h => ?_⟩
    omega
  rw [if_neg hheader]
  rw [not_or, not_lt, not_lt] at hlen hheader
  cases parseTcpOptions pkt (tcpHeaderLen pkt) (tcpHeaderLen pkt) 20 0 with
  | error e => exact ⟨nofun, nofun⟩
  | ok mss =>
    dsimp only
    rw [if_neg (by simp)]
    constructor
    · rintro ⟨⟩
      exact ⟨hlen, hheader, mss, rfl, rfl⟩
    · rintro ⟨-, -, _, ⟨⟩, rfl⟩
      rfl

/-- The parser accepts the grammar and reads inside of the packet. -/
theorem parseTcpPkt_accepts (pkt : Bytes) (addr : Ipv4AddrPair) :
    (∀ checkSumEnable,
      parseTcpPktChecked checkSumEnable pkt addr = .ok (parseTcpPkt checkSumEnable pkt addr)) ∧
    ∀ result, parseTcpPkt false pkt addr = .ok result ↔
      (20 ≤ pkt.length ∧ pkt.length ≤ 1480) ∧
        (20 ≤ tcpHeaderLen pkt ∧ tcpHeaderLen pkt ≤ pkt.length) ∧
      ∃ os, OptionArea ((pkt.take (tcpHeaderLen pkt)).drop 20) os ∧
        result = tcpFields pkt (if byteAt pkt 13 &&& tcpFlagsSyn ≠ 0 then lastMss os else 0) := by
  refine ⟨fun _ => parseTcpPktChecked_eq _ pkt addr, fun result => ?_⟩
  rw [parseTcpPkt_false_ok_iff]
  refine and_congr_right fun _ => and_congr_right fun hheader => ?_
  have hwalk := parseTcpOptions_ok_iff hheader.2 hheader.1
  constructor
  · rintro ⟨mss, hmss, rfl⟩
    obtain ⟨os, hos, rfl⟩ := (hwalk mss).mp hmss
    exact ⟨os, hos, rfl⟩
  · rintro ⟨os, hos, rfl⟩
    exact ⟨_, (hwalk _).mpr ⟨os, hos, rfl⟩, rfl⟩

end Halo
