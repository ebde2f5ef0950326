import FlowHost.Native
import FlowHost.Proofs.Accesses
import FlowHost.Proofs.Wrapping

/-!
# Scalars there and back

What is written as a scalar of a type is read back as its cast. What is read and written back is left alone, but for
octets that a type has no scalar of its own for: any boolean but zero is written as one, and a floating-point number
that is not finite as zero.

* `ScalarType.normal`: what octets are written back as.
* `Scalar.toBytes_cast_ofBytes`: they are.
* `MemoryM.scalars_round_trip`: **both ways around**, for all scalars, types and memories.
* `CallM.readScalar_of_writeScalar`: and so for native functions.
-/

namespace FlowHost

namespace ScalarType

/-- **Octets in the normal form of a type.** Booleans are zero or one, and a floating-point number that is not finite
is zero; all other octets stay as they are. -/
def normal (ty : ScalarType) (bs : Bytes) : Bytes :=
  match ty with
  | bool => if bs = [0] then [0] else [1]
  | f32 => if FloatFormat.single.isFinite (Bytes.toNat bs) then bs else [0, 0, 0, 0]
  | f64 => if FloatFormat.double.isFinite (Bytes.toNat bs) then bs else [0, 0, 0, 0, 0, 0, 0, 0]
  | _ => bs

/-- All octets are an integer's. -/
theorem normal_of_isInteger {ty : ScalarType} (hty : ty.IsInteger) (bs : Bytes) : ty.normal bs = bs := by
  cases ty with
  | bool => exact absurd rfl hty.1
  | f32 => exact absurd rfl hty.2.1
  | f64 => exact absurd rfl hty.2.2
  | _ => rfl

/-- A scalar's octets have a normal form of as many. -/
theorem length_normal {ty : ScalarType} {bs : Bytes} (h : bs.length = ty.width) :
    (ty.normal bs).length = ty.width := by
  cases ty with
  | bool =>
    rw [normal]
    split <;> rfl
  | f32 =>
    rw [normal]
    split
    · exact h
    · rfl
  | f64 =>
    rw [normal]
    split
    · exact h
    · rfl
  | _ => exact h

/-- **The normal form is one.** -/
theorem normal_normal (ty : ScalarType) (bs : Bytes) : ty.normal (ty.normal bs) = ty.normal bs := by
  cases ty with
  | bool =>
    by_cases h : bs = [0]
    · rw [normal, normal, if_pos h, if_pos rfl]
    · rw [normal, normal, if_neg h, if_neg (by decide)]
  | f32 =>
    by_cases h : FloatFormat.single.isFinite (Bytes.toNat bs) = true
    · rw [normal, normal, if_pos h, if_pos h]
    · rw [normal, normal, if_neg h, if_pos (by decide)]
  | f64 =>
    by_cases h : FloatFormat.double.isFinite (Bytes.toNat bs) = true
    · rw [normal, normal, if_pos h, if_pos h]
    · rw [normal, normal, if_neg h, if_pos (by decide)]
  | _ => rfl

end ScalarType

namespace Scalar

variable {ty : ScalarType} {bs : Bytes}

/-- Octets of the right number are those of the scalar that they spell, unless that is a boolean. -/
theorem toBytes_ofBytes (hlength : bs.length = ty.width) (hty : ty ≠ .bool) : (ofBytes ty bs).toBytes = bs := by
  have hlt := Bytes.toNat_lt bs
  have hword : (ofWord (Bytes.toNat bs) ty).word = Bytes.toNat bs := by
    rw [hlength] at hlt
    cases ty with
    | bool => exact absurd rfl hty
    | i8 => exact UInt8.toNat_ofNat_of_lt' hlt
    | u8 => exact UInt8.toNat_ofNat_of_lt' hlt
    | i16 => exact UInt16.toNat_ofNat_of_lt' hlt
    | u16 => exact UInt16.toNat_ofNat_of_lt' hlt
    | i32 => exact UInt32.toNat_ofNat_of_lt' hlt
    | u32 => exact UInt32.toNat_ofNat_of_lt' hlt
    | f32 => exact UInt32.toNat_ofNat_of_lt' hlt
    | i64 => exact UInt64.toNat_ofNat_of_lt' hlt
    | u64 => exact UInt64.toNat_ofNat_of_lt' hlt
    | f64 => exact UInt64.toNat_ofNat_of_lt' hlt
  rw [toBytes, ofBytes, hword, type_ofWord, ← hlength, Bytes.ofNat_toNat]

/-- A scalar that is not finite is zero as a scalar of a type. -/
theorem cast_of_not_finite {v : Scalar} (h : v.isFinite ≠ true) (ty : ScalarType) : v.cast ty = ofInt 0 ty := by
  cases v with
  | f32 x =>
    have hx : x.isFinite ≠ true := h
    have hquantity : (f32 x).quantity = .integer 0 := if_neg hx
    rw [cast, hquantity]
  | f64 x =>
    have hx : x.isFinite ≠ true := h
    have hquantity : (f64 x).quantity = .integer 0 := if_neg hx
    rw [cast, hquantity]
  | _ => exact absurd rfl h

/-- A scalar that octets spell is written back as they are, if it is finite and no boolean. -/
theorem toBytes_cast_of_finite (hlength : bs.length = ty.width) (hty : ty ≠ .bool)
    (hfinite : (ofBytes ty bs).isFinite = true) : ((ofBytes ty bs).cast ty).toBytes = bs := by
  have hself := cast_self hfinite
  rw [ofBytes, type_ofWord] at hself
  rw [ofBytes, hself]
  exact toBytes_ofBytes hlength hty

/-- **What octets are written back as**: their normal form. -/
theorem toBytes_cast_ofBytes (hlength : bs.length = ty.width) : ((ofBytes ty bs).cast ty).toBytes = ty.normal bs := by
  have hlt := Bytes.toNat_lt bs
  rw [hlength] at hlt
  cases ty with
  | bool =>
    obtain ⟨b, rfl⟩ := List.length_eq_one_iff.1 hlength
    by_cases hb : b = 0
    · subst hb
      decide
    · have hword : Bytes.toNat [b] ≠ 0 := by
        intro hzero
        have hsum : b.toNat + 256 * 0 = 0 := hzero
        exact hb (UInt8.toNat_inj.1 (by simpa using hsum))
      have htrue : ofBytes .bool [b] = .bool true := congrArg Scalar.bool (decide_eq_true hword)
      rw [htrue, ScalarType.normal, if_neg (by simpa using hb)]
      decide
  | f32 =>
    have hword : (UInt32.ofNat (Bytes.toNat bs)).toNat = Bytes.toNat bs := UInt32.toNat_ofNat_of_lt' hlt
    have hisFinite : (ofBytes .f32 bs).isFinite = FloatFormat.single.isFinite (Bytes.toNat bs) :=
      congrArg FloatFormat.single.isFinite hword
    by_cases h : FloatFormat.single.isFinite (Bytes.toNat bs) = true
    · rw [toBytes_cast_of_finite hlength (by decide) (hisFinite.trans h), ScalarType.normal, if_pos h]
    · rw [cast_of_not_finite (hisFinite ▸ h), ScalarType.normal, if_neg h]
      decide
  | f64 =>
    have hword : (UInt64.ofNat (Bytes.toNat bs)).toNat = Bytes.toNat bs := UInt64.toNat_ofNat_of_lt' hlt
    have hisFinite : (ofBytes .f64 bs).isFinite = FloatFormat.double.isFinite (Bytes.toNat bs) :=
      congrArg FloatFormat.double.isFinite hword
    by_cases h : FloatFormat.double.isFinite (Bytes.toNat bs) = true
    · rw [toBytes_cast_of_finite hlength (by decide) (hisFinite.trans h), ScalarType.normal, if_pos h]
    · rw [cast_of_not_finite (hisFinite ▸ h), ScalarType.normal, if_neg h]
      decide +kernel
  | _ => exact toBytes_cast_of_finite hlength (by decide) rfl

end Scalar

namespace MemoryM

variable {ptr : UInt32} {ty : ScalarType} {m : Memory}

/-- Reads a scalar and writes it back to where it was. -/
def reencode (ptr : UInt32) (ty : ScalarType) : MemoryM Unit := do
  encodeScalar (← decodeScalar ptr ty) ptr ty

/-- Where there is room for a scalar, its octets are put into their normal form. -/
theorem reencode_ok (h : ptr.toNat + ty.width ≤ m.size) :
    reencode ptr ty m =
      .ok () (m.overlay ptr.toNat (ty.normal (m.bytesAt ptr.toNat ty.width))) := by
  have hlength := m.length_bytesAt ptr.toNat ty.width
  set bs := m.bytesAt ptr.toNat ty.width with hbs
  simp only [reencode, bind, EStateM.bind, decodeScalar_ok h, ← hbs]
  rcases encodeScalar_cases (Scalar.ofBytes ty bs) ptr ty m with ⟨-, hwrite⟩ | ⟨hout, -⟩
  · rw [hwrite, Scalar.toBytes_cast_ofBytes hlength]
  · exact absurd h hout

/-- A scalar that is written is read back as its cast. -/
theorem decodeScalar_overlay (h : ptr.toNat + ty.width ≤ m.size) (v : Scalar) :
    let m' := m.overlay ptr.toNat (v.cast ty).toBytes
    decodeScalar ptr ty m' = .ok (v.cast ty) m' := by
  intro m'
  have hroom : ptr.toNat + ty.width ≤ m'.size := h
  have hback : m'.bytesAt ptr.toNat ty.width = (v.cast ty).toBytes :=
    m.bytesAt_overlay_length (v.length_toBytes_cast ty)
  rw [decodeScalar_ok hroom, hback, v.ofBytes_cast ty]

/-- **Scalars there and back.** Where there is room for a scalar of a type, every scalar is written as one, and read
back as its cast to the type, bit for bit. The other way around, a scalar is read there, and written back it leaves its
octets in the normal form of the type; a second time changes nothing. So memory stays as it is for all types of
integers, and for all floating-point numbers that are finite. -/
theorem scalars_round_trip (h : ptr.toNat + ty.width ≤ m.size) :
    (∀ v : Scalar, ∃ m', encodeScalar v ptr ty m = .ok () m' ∧ decodeScalar ptr ty m' = .ok (v.cast ty) m') ∧
      ∃ v m', decodeScalar ptr ty m = .ok v m ∧ encodeScalar v ptr ty m = .ok () m' ∧
        m' = m.overlay ptr.toNat (ty.normal (m.bytesAt ptr.toNat ty.width)) ∧
        reencode ptr ty m = .ok () m' ∧ reencode ptr ty m' = .ok () m' ∧
        (ty.IsInteger → m' = m) ∧ (ty ≠ .bool → v.isFinite = true → m' = m) := by
  have hlength := m.length_bytesAt ptr.toNat ty.width
  have hread : decodeScalar ptr ty m = .ok (Scalar.ofBytes ty (m.bytesAt ptr.toNat ty.width)) m := decodeScalar_ok h
  constructor
  · intro v
    rcases encodeScalar_cases v ptr ty m with ⟨-, hwrite⟩ | ⟨hout, -⟩
    · exact ⟨_, hwrite, decodeScalar_overlay h v⟩
    · exact absurd h hout
  · set bs := m.bytesAt ptr.toNat ty.width with hbs
    set m' := m.overlay ptr.toNat (ty.normal bs) with hm'
    have hwrite : encodeScalar (Scalar.ofBytes ty bs) ptr ty m = .ok () m' := by
      have honce : reencode ptr ty m = .ok () m' := reencode_ok h
      simpa only [reencode, bind, EStateM.bind, hread] using honce
    have htwice : reencode ptr ty m' = .ok () m' := by
      have hback : m'.bytesAt ptr.toNat ty.width = ty.normal bs :=
        m.bytesAt_overlay_length (ScalarType.length_normal hlength)
      -- the octets are in their normal form by now, and are put where they are already
      have hagain : reencode ptr ty m' = .ok () (m'.overlay ptr.toNat (ty.normal (m'.bytesAt ptr.toNat ty.width))) :=
        reencode_ok h
      rw [hback, ty.normal_normal, ← hback, m'.overlay_bytesAt] at hagain
      exact hagain
    have hsame : ty.normal bs = bs → m' = m := by
      intro hnormal
      rw [hm', hnormal]
      exact m.overlay_bytesAt ptr.toNat ty.width
    refine ⟨_, m', hread, hwrite, rfl, reencode_ok h, htwice, fun hty => hsame (ty.normal_of_isInteger hty bs), ?_⟩
    intro hty hfinite
    apply hsame
    rw [← Scalar.toBytes_cast_ofBytes hlength]
    exact Scalar.toBytes_cast_of_finite hlength hty hfinite

/-- A negative zero is left alone where there is room for it. -/
theorem scalars_round_trip_zero :
    let m := (Memory.filled 4 0).overlay 0 [0, 0, 0, 0x80]
    (0 : UInt32).toNat + ScalarType.f32.width ≤ m.size ∧
      decodeScalar 0 .f32 m = .ok (.f32 ⟨0x80000000⟩) m ∧ reencode 0 .f32 m = .ok () m := by
  intro m
  have hroom : (0 : UInt32).toNat + ScalarType.f32.width ≤ m.size := by decide
  obtain ⟨-, v, m', hread, -, -, honce, -, -, hfinite⟩ := scalars_round_trip hroom
  have hbytes : m.bytesAt (0 : UInt32).toNat ScalarType.f32.width = [0, 0, 0, 0x80] :=
    (Memory.filled 4 0).bytesAt_overlay 0 [0, 0, 0, 0x80]
  have hvalue : decodeScalar 0 .f32 m = .ok (.f32 ⟨0x80000000⟩) m := by
    rw [decodeScalar_ok hroom, hbytes]
    rfl
  have hsame : v = .f32 ⟨0x80000000⟩ := by
    rw [hvalue] at hread
    injection hread with hv
    exact hv.symm
  have hleft : m' = m := hfinite (by decide) (by rw [hsame]; decide)
  exact ⟨hroom, hvalue, hleft ▸ honce⟩

end MemoryM

/-- **What a native function writes as a scalar** it reads back as its cast. -/
theorem CallM.readScalar_of_writeScalar {v : Scalar} {ptr : UInt32} {ty : ScalarType} {st st' : CallState}
    (h : writeScalar v ptr ty st = .ok () st') : readScalar ptr ty st' = .ok (v.cast ty) st' := by
  unfold writeScalar onMemory at h
  rcases MemoryM.encodeScalar_cases v ptr ty st.memory with ⟨hroom, hwrite⟩ | ⟨-, e, hwrite⟩
  · rw [hwrite] at h
    cases h
    unfold readScalar onMemory
    rw [MemoryM.decodeScalar_overlay hroom v]
  · rw [hwrite] at h
    cases h

end FlowHost
