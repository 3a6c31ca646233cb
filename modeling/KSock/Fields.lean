import KSock.Encoders
/-!
# Typed fields

The inserts of `KSocketBuffer` put a value of 8, 16, 32 or 64 bits, signed or
not, or an array of bytes at any place of the buffer. A value is inserted as its
two's complement in network order, so a sequence of fields appended one after
another can be read back by a reader that knows their types.
-/
open KSockLib.Endian

namespace KSock

/-- A value that an overload of `insert` takes. -/
inductive Field where
  | u8 (value : UInt8)
  | u16 (value : UInt16)
  | u32 (value : UInt32)
  | u64 (value : UInt64)
  | i8 (value : Int8)
  | i16 (value : Int16)
  | i32 (value : Int32)
  | i64 (value : Int64)
  | bytes (bytebuffer : List UInt8)
  deriving DecidableEq, Repr

/-- The type of a field. An array's is its size. -/
inductive FieldType where
  | u8
  | u16
  | u32
  | u64
  | i8
  | i16
  | i32
  | i64
  | bytes (size : Nat)
  deriving DecidableEq, Repr

def Field.type : Field → FieldType
  | u8 _ => .u8
  | u16 _ => .u16
  | u32 _ => .u32
  | u64 _ => .u64
  | i8 _ => .i8
  | i16 _ => .i16
  | i32 _ => .i32
  | i64 _ => .i64
  | bytes bytebuffer => .bytes bytebuffer.length

/-! ## The inserts -/

namespace KSocketBuffer

def insertU8 (b : KSocketBuffer) (it : Nat) (value : UInt8) : KSocketBuffer := ⟨b.buffer.insert it [value]⟩

def insertU64 (b : KSocketBuffer) (it : Nat) (value : UInt64) : KSocketBuffer :=
  ⟨b.buffer.insert it (insertValue (htonll value).toNat
    [(0x00000000000000FF, 0), (0x000000000000FF00, 8), (0x0000000000FF0000, 16), (0x00000000FF000000, 24),
      (0x000000FF00000000, 32), (0x0000FF0000000000, 40), (0x00FF000000000000, 48), (0xFF00000000000000, 56)])⟩

def insertI8 (b : KSocketBuffer) (it : Nat) (value : Int8) : KSocketBuffer := b.insertU8 it value.toUInt8
def insertI16 (b : KSocketBuffer) (it : Nat) (value : Int16) : KSocketBuffer := b.insertU16 it value.toUInt16
def insertI32 (b : KSocketBuffer) (it : Nat) (value : Int32) : KSocketBuffer := b.insertU32 it value.toUInt32
def insertI64 (b : KSocketBuffer) (it : Nat) (value : Int64) : KSocketBuffer := b.insertU64 it value.toUInt64

/-- The overloads of `insert`. -/
def insert (b : KSocketBuffer) (it : Nat) : Field → KSocketBuffer
  | .i8 value => b.insertU8 it value.toUInt8
  | .i16 value => b.insertU16 it value.toUInt16
  | .i32 value => b.insertU32 it value.toUInt32
  | .i64 value => b.insertU64 it value.toUInt64
  | .u8 value => b.insertU8 it value
  | .u16 value => b.insertU16 it value
  | .u32 value => b.insertU32 it value
  | .u64 value => b.insertU64 it value
  | .bytes bytebuffer => b.insertBytebuffer it bytebuffer

/-- The inserts with the type in their name. -/
def insertNamed (b : KSocketBuffer) (it : Nat) : Field → KSocketBuffer
  | .i8 value => b.insertI8 it value
  | .i16 value => b.insertI16 it value
  | .i32 value => b.insertI32 it value
  | .i64 value => b.insertI64 it value
  | .u8 value => b.insertU8 it value
  | .u16 value => b.insertU16 it value
  | .u32 value => b.insertU32 it value
  | .u64 value => b.insertU64 it value
  | .bytes bytebuffer => b.insertBytebuffer it bytebuffer

/-- Each field in turn, at `end()`. -/
def append (b : KSocketBuffer) (fields : List Field) : KSocketBuffer :=
  fields.foldl (fun b field => b.insert b.endIt field) b

end KSocketBuffer

/-! ## Network order -/

/-- The `n` bytes of a number in two's complement, most significant first. -/
def twosComplement (n : Nat) (z : Int) : List UInt8 := toBE n (z % 256 ^ n).toNat

def Field.networkBytes : Field → List UInt8
  | u8 value => twosComplement 1 value.toNat
  | u16 value => twosComplement 2 value.toNat
  | u32 value => twosComplement 4 value.toNat
  | u64 value => twosComplement 8 value.toNat
  | i8 value => twosComplement 1 value.toInt
  | i16 value => twosComplement 2 value.toInt
  | i32 value => twosComplement 4 value.toInt
  | i64 value => twosComplement 8 value.toInt
  | bytes bytebuffer => bytebuffer

namespace FieldType

def size : FieldType → Nat
  | u8 | i8 => 1
  | u16 | i16 => 2
  | u32 | i32 => 4
  | u64 | i64 => 8
  | bytes size => size

/-- The field whose bytes are `raw`, most significant first. -/
def read (raw : List UInt8) : FieldType → Field
  | u8 => .u8 (UInt8.ofNat (ofBE raw))
  | u16 => .u16 (UInt16.ofNat (ofBE raw))
  | u32 => .u32 (UInt32.ofNat (ofBE raw))
  | u64 => .u64 (UInt64.ofNat (ofBE raw))
  | i8 => .i8 (Int8.ofNat (ofBE raw))
  | i16 => .i16 (Int16.ofNat (ofBE raw))
  | i32 => .i32 (Int32.ofNat (ofBE raw))
  | i64 => .i64 (Int64.ofNat (ofBE raw))
  | bytes _ => .bytes raw

end FieldType

/-- Reads a field of each type off the front, and leaves what follows them. -/
def readFields : List FieldType → List UInt8 → Option (List Field × List UInt8)
  | [], raw => some ([], raw)
  | type :: types, raw => do
    if raw.length < type.size then
      none
    let (fields, raw') ← readFields types (raw.drop type.size)
    return (type.read (raw.take type.size) :: fields, raw')

/-- A number that fits is its own complement. -/
theorem twosComplement_ofNat {n v : Nat} (hv : v < 256 ^ n) : twosComplement n v = toBE n v := by
  have hmod : ((v : Int) % 256 ^ n).toNat = v := by
    rw [Int.emod_eq_of_lt (Int.natCast_nonneg v) (by exact_mod_cast hv), Int.toNat_natCast]
  rw [twosComplement, hmod]

/-- Of a signed word it is the same word read unsigned. -/
theorem twosComplement_toInt (n : Nat) (x : BitVec (8 * n)) : twosComplement n x.toInt = toBE n x.toNat := by
  have hpow : (256 : Int) ^ n = ((2 ^ (8 * n) : Nat) : Int) := by
    rw [pow_mul]
    norm_num
  have hmod : (x.toInt % 256 ^ n).toNat = x.toNat := by
    rw [hpow, ← BitVec.toNat_ofInt, BitVec.ofInt_toInt]
  rw [twosComplement, hmod]

/-! ## What the inserts do -/

@[simp] theorem Field.length_networkBytes (field : Field) : field.networkBytes.length = field.type.size := by
  cases field with
  | bytes => rfl
  | _ => exact length_toBE _ _

namespace KSocketBuffer

theorem insertU8_eq (b : KSocketBuffer) (it : Nat) (value : UInt8) :
    b.insertU8 it value = b.insertBytebuffer it (toBE 1 value.toNat) := by
  have hbyte : toBE 1 value.toNat = [value] := by
    change [UInt8.ofNat value.toNat] = [value]
    rw [UInt8.ofNat_toNat]
  rw [insertU8, insertBytebuffer, hbyte]

theorem insertU64_eq (b : KSocketBuffer) (it : Nat) (value : UInt64) :
    b.insertU64 it value = b.insertBytebuffer it (toBE 8 value.toNat) := by
  have hbytes := insertValue_range 8 (htonll value).toNat
  rw [← storeU64, storeU64_htonll] at hbytes
  rw [insertU64, insertBytebuffer, ← hbytes]
  rfl

/-- A typed insert is an insert of the field's bytes in network order. -/
theorem insert_eq (b : KSocketBuffer) (it : Nat) (field : Field) :
    b.insert it field = b.insertBytebuffer it field.networkBytes := by
  cases field with
  | u8 value => exact (insertU8_eq b it value).trans (congrArg _ (twosComplement_ofNat value.toNat_lt).symm)
  | u16 value => exact (insertU16_eq b it value).trans (congrArg _ (twosComplement_ofNat value.toNat_lt).symm)
  | u32 value => exact (insertU32_eq b it value).trans (congrArg _ (twosComplement_ofNat value.toNat_lt).symm)
  | u64 value => exact (insertU64_eq b it value).trans (congrArg _ (twosComplement_ofNat value.toNat_lt).symm)
  -- a cast to the unsigned type keeps the bits
  | i8 value =>
    exact (insertU8_eq b it value.toUInt8).trans (congrArg _ (twosComplement_toInt 1 value.toBitVec).symm)
  | i16 value =>
    exact (insertU16_eq b it value.toUInt16).trans (congrArg _ (twosComplement_toInt 2 value.toBitVec).symm)
  | i32 value =>
    exact (insertU32_eq b it value.toUInt32).trans (congrArg _ (twosComplement_toInt 4 value.toBitVec).symm)
  | i64 value =>
    exact (insertU64_eq b it value.toUInt64).trans (congrArg _ (twosComplement_toInt 8 value.toBitVec).symm)
  | bytes => rfl

theorem insertNamed_eq (b : KSocketBuffer) (it : Nat) (field : Field) : b.insertNamed it field = b.insert it field := by
  cases field <;> rfl

/-- Fields appended follow one another, behind what the buffer had. -/
theorem append_eq (b : KSocketBuffer) (fields : List Field) :
    (b.append fields).buffer = b.buffer ++ fields.flatMap Field.networkBytes := by
  unfold append
  induction fields generalizing b with
  | nil => simp
  | cons field fields ih =>
    rw [List.foldl_cons, ih, insert_eq, insertBytebuffer_endIt, List.flatMap_cons, List.append_assoc]

end KSocketBuffer

/-! ## Reading back -/

theorem ofBE_twosComplement {n v : Nat} (hv : v < 256 ^ n) : ofBE (twosComplement n v) = v := by
  rw [twosComplement_ofNat hv, ofBE_toBE hv]

theorem ofBE_twosComplement_toInt (n : Nat) (x : BitVec (8 * n)) : ofBE (twosComplement n x.toInt) = x.toNat := by
  have hx : x.toNat < 256 ^ n := by
    have h := x.isLt
    rw [pow_mul] at h
    exact h
  rw [twosComplement_toInt, ofBE_toBE hx]

/-- The bytes of a field are read as that field. -/
theorem Field.read_networkBytes (field : Field) : field.type.read field.networkBytes = field := by
  cases field with
  | u8 value =>
    have hread : ofBE (twosComplement 1 value.toNat) = value.toNat := ofBE_twosComplement value.toNat_lt
    simp [networkBytes, type, FieldType.read, hread]
  | u16 value =>
    have hread : ofBE (twosComplement 2 value.toNat) = value.toNat := ofBE_twosComplement value.toNat_lt
    simp [networkBytes, type, FieldType.read, hread]
  | u32 value =>
    have hread : ofBE (twosComplement 4 value.toNat) = value.toNat := ofBE_twosComplement value.toNat_lt
    simp [networkBytes, type, FieldType.read, hread]
  | u64 value =>
    have hread : ofBE (twosComplement 8 value.toNat) = value.toNat := ofBE_twosComplement value.toNat_lt
    simp [networkBytes, type, FieldType.read, hread]
  | i8 value =>
    have hread : ofBE (twosComplement 1 value.toInt) = value.toBitVec.toNat := ofBE_twosComplement_toInt 1 _
    simp [networkBytes, type, FieldType.read, hread, Int8.ofNat]
  | i16 value =>
    have hread : ofBE (twosComplement 2 value.toInt) = value.toBitVec.toNat := ofBE_twosComplement_toInt 2 _
    simp [networkBytes, type, FieldType.read, hread, Int16.ofNat]
  | i32 value =>
    have hread : ofBE (twosComplement 4 value.toInt) = value.toBitVec.toNat := ofBE_twosComplement_toInt 4 _
    simp [networkBytes, type, FieldType.read, hread, Int32.ofNat]
  | i64 value =>
    have hread : ofBE (twosComplement 8 value.toInt) = value.toBitVec.toNat := ofBE_twosComplement_toInt 8 _
    simp [networkBytes, type, FieldType.read, hread, Int64.ofNat]
  | bytes => rfl

/-- A reader that knows the types reads the fields, and stops where they end. -/
theorem readFields_networkBytes (fields : List Field) (rest : List UInt8) :
    readFields (fields.map Field.type) (fields.flatMap Field.networkBytes ++ rest) = some (fields, rest) := by
  induction fields with
  | nil => rfl
  | cons field fields ih =>
    have hlength : field.type.size = field.networkBytes.length := field.length_networkBytes.symm
    have hroom : ¬(field.networkBytes ++ (fields.flatMap Field.networkBytes ++ rest)).length < field.type.size := by
      rw [hlength, List.length_append]
      omega
    rw [List.map_cons, List.flatMap_cons, List.append_assoc, readFields, if_neg hroom, hlength, List.drop_left,
      List.take_left, ih, field.read_networkBytes]
    rfl

/-- For every buffer, place in it and field: the insert puts the field's bytes in
network order at that place. For every sequence of fields appended to a buffer:
the bytes the buffer had stay in front, and behind them a reader that knows the
types reads exactly the sequence. So sequences of the same types that leave the
same buffer are the same. -/
theorem inserts_lossless (b : KSocketBuffer) :
    (∀ field : Field, ∀ i ≤ b.size,
      (b.insert (b.beginIt + i) field).buffer = b.buffer.take i ++ field.networkBytes ++ b.buffer.drop i ∧
        b.insertNamed (b.beginIt + i) field = b.insert (b.beginIt + i) field) ∧
    (∀ fields : List Field, (b.append fields).buffer.take b.size = b.buffer ∧
      readFields (fields.map Field.type) ((b.append fields).buffer.drop b.size) = some (fields, [])) ∧
    ∀ fields fields' : List Field, fields.map Field.type = fields'.map Field.type →
      b.append fields = b.append fields' → fields = fields' := by
  have hread : ∀ fields : List Field,
      readFields (fields.map Field.type) ((b.append fields).buffer.drop b.size) = some (fields, []) := by
    intro fields
    have h := readFields_networkBytes fields []
    rw [List.append_nil] at h
    rw [KSocketBuffer.append_eq, KSocketBuffer.size, List.drop_left, h]
  refine ⟨?_, ?_, ?_⟩
  · intro field i _
    rw [KSocketBuffer.insertNamed_eq, KSocketBuffer.insert_eq, KSocketBuffer.beginIt, Nat.zero_add]
    exact ⟨rfl, rfl⟩
  · intro fields
    refine ⟨?_, hread fields⟩
    rw [KSocketBuffer.append_eq, KSocketBuffer.size, List.take_left]
  · intro fields fields' htypes hbuffers
    have h := hread fields
    rw [htypes, hbuffers, hread fields'] at h
    cases h
    rfl

/-- -2 in the middle of three bytes, and a sequence appended behind them. -/
theorem minus_two_inserted :
    ((⟨[1, 2, 3]⟩ : KSocketBuffer).insert 1 (.i16 (-2))).buffer = [1, 255, 254, 2, 3] ∧
      readFields [.u8, .bytes 2, .i32] (((⟨[1, 2, 3]⟩ : KSocketBuffer).append
        [.u8 4, .bytes [5, 6], .i32 (-7)]).buffer.drop 3) = some ([.u8 4, .bytes [5, 6], .i32 (-7)], []) := by
  obtain ⟨hinsert, happend, -⟩ := inserts_lossless ⟨[1, 2, 3]⟩
  constructor
  · exact (hinsert (.i16 (-2)) 1 (by decide)).1
  · exact (happend [.u8 4, .bytes [5, 6], .i32 (-7)]).2

end KSock
