import Mathlib.Data.Int.Order.Basic
import FaasNet.Lib.Codec

/-!
# `WriteBufferContext` and `ReadBufferContext`

What goes over the wire, field by field: `SerializerExtensions` and the two contexts built on it. A
writer is the list of the bytes it appends. A reader takes bytes off the queue; it fails where the
source throws, which is where the queue runs out. An `int` is written with its highest byte first, a
`long` with its lowest, and both are signed.
-/

namespace FaasNet.RaftConsensus

open FaasNet.Lib

/-! ## Values of the source's types -/

/-- The values of `int`. -/
def IsInt (i : Int) : Prop := -0x80000000 ≤ i ∧ i < 0x80000000

/-- The values of `long`. -/
def IsLong (l : Int) : Prop := -0x8000000000000000 ≤ l ∧ l < 0x8000000000000000

/-- Only ASCII characters. -/
def IsAscii (s : String) : Prop := ∀ c ∈ s.toList, c.toNat < 128

/-- The `Length` of a string and the `Count` of a collection are ints. -/
def IsCount (n : Nat) : Prop := n < 0x80000000

/-- A string of ASCII characters. -/
structure IsText (s : String) : Prop where
  ascii : IsAscii s
  length : IsCount s.length

instance : DecidablePred IsInt := fun _ => inferInstanceAs (Decidable (_ ∧ _))
instance : DecidablePred IsLong := fun _ => inferInstanceAs (Decidable (_ ∧ _))
instance : DecidablePred IsAscii := fun s => List.decidableBAll (fun c : Char => c.toNat < 128) s.toList
instance : DecidablePred IsCount := fun n => inferInstanceAs (Decidable (n < 0x80000000))
instance : DecidablePred IsText := fun s =>
  decidable_of_iff (IsAscii s ∧ IsCount s.length) ⟨fun h => ⟨h.1, h.2⟩, fun h => ⟨h.1, h.2⟩⟩

/-- The cast to `byte`, which keeps the lowest eight bits. -/
def toByte (i : Int) : UInt8 := UInt8.ofNat (i % 256).toNat

/-- A byte is what is left by 256. -/
@[simp] theorem toByte_toNat (i : Int) : ((toByte i).toNat : Int) = i % 256 := by
  have below : (i % 256).toNat < 256 := by omega
  simp only [toByte, UInt8.toNat_ofNat', Nat.reducePow, Nat.mod_eq_of_lt below]
  omega

/-! ## `Encoding.ASCII` -/

namespace Ascii

/-- The bytes of a character. What ASCII lacks becomes a question mark, for each UTF-16 code unit. -/
def charBytes (c : Char) : List UInt8 :=
  if c.toNat < 128 then [UInt8.ofNat c.toNat] else if c.toNat < 0x10000 then [63] else [63, 63]

/-- `Encoding.ASCII.GetBytes`. -/
def getBytes (s : String) : List UInt8 := s.toList.flatMap charBytes

/-- The character of a byte; a byte that is not ASCII becomes a question mark. -/
def byteChar (b : UInt8) : Char := if b.toNat < 128 then Char.ofNat b.toNat else '?'

/-- `Encoding.ASCII.GetString`. -/
def getString (bytes : List UInt8) : String := String.ofList (bytes.map byteChar)

/-- Bytes are read as ASCII characters. -/
theorem byteChar_lt (b : UInt8) : (byteChar b).toNat < 128 := by
  unfold byteChar
  split
  next ascii =>
    have valid : b.toNat.isValidChar := by unfold Nat.isValidChar; omega
    rw [Char.ofNat, dif_pos valid]
    exact ascii
  next => decide

/-- Only ASCII characters come out of a buffer. -/
theorem getString_ascii (bytes : List UInt8) : IsAscii (getString bytes) := by
  intro c member
  obtain ⟨b, _, rfl⟩ := List.mem_map.mp (by simpa [getString] using member)
  exact byteChar_lt b

@[simp] theorem getString_length (bytes : List UInt8) : (getString bytes).length = bytes.length := by
  simp [getString]

/-- An ASCII character is read back. -/
theorem byteChar_charByte {c : Char} (ascii : c.toNat < 128) : byteChar (UInt8.ofNat c.toNat) = c := by
  have small : c.toNat % 256 = c.toNat := by omega
  simp [byteChar, small, ascii]

/-- An ASCII string has one byte for each character. -/
theorem getBytes_eq_map {s : String} (ascii : IsAscii s) :
    getBytes s = s.toList.map fun c => UInt8.ofNat c.toNat := by
  have one : ∀ c ∈ s.toList, charBytes c = [UInt8.ofNat c.toNat] := fun c member => if_pos (ascii c member)
  rw [getBytes, List.flatMap_congr one, List.map_eq_flatMap]

theorem getBytes_length {s : String} (ascii : IsAscii s) : (getBytes s).length = s.length := by
  rw [getBytes_eq_map ascii, List.length_map, String.length_toList]

/-- An ASCII text is read back. -/
theorem getString_getBytes {s : String} (ascii : IsAscii s) : getString (getBytes s) = s := by
  rw [getBytes_eq_map ascii, getString, List.map_map]
  have same : ∀ c ∈ s.toList, (byteChar ∘ fun c => UInt8.ofNat c.toNat) c = id c :=
    fun c member => byteChar_charByte (ascii c member)
  rw [List.map_congr_left same, List.map_id, String.ofList_toList]

end Ascii

/-! ## Writing -/

namespace WriteBufferContext

/-- A shift to the right by four bits divides by `0x10`. -/
def writeInteger (it : Int) : List UInt8 :=
  [toByte (it / 0x1000000), toByte (it / 0x10000), toByte (it / 0x100), toByte it]

/-- A long integer, its last byte first. -/
def writeLong (l : Int) : List UInt8 :=
  [toByte l, toByte (l / 0x100), toByte (l / 0x10000), toByte (l / 0x1000000),
    toByte (l / 0x100000000), toByte (l / 0x10000000000), toByte (l / 0x1000000000000), toByte (l / 0x100000000000000)]

/-- A string behind its length. -/
def writeString (str : String) : List UInt8 :=
  let payload := Ascii.getBytes str
  writeInteger payload.length ++ payload

/-- A boolean in a byte. -/
def writeBoolean (i : Bool) : List UInt8 := [if i then 1 else 0]

/-- The length goes into one byte. -/
def writeByteArray (b : List UInt8) : List UInt8 := toByte b.length :: b

/-- A `TimeSpan?` is its ticks; `null` is written as 0. -/
def writeTimeSpan (sp : Option Int) : List UInt8 :=
  match sp with
  | none => writeLong 0
  | some ticks => writeLong ticks

/-- The count of a collection, then its elements. -/
def writeMany {α : Type} (serialize : α → List UInt8) (lst : List α) : List UInt8 :=
  writeInteger lst.length ++ lst.flatMap serialize

/-- Strings behind their number. -/
def writeStringArray (lst : List String) : List UInt8 := writeMany writeString lst

end WriteBufferContext

/-! ## Reading -/

namespace ReadBufferContext

open Reader (item times)

/-- `Dequeue(number)`. -/
def dequeue (number : Nat) : Reader UInt8 (List UInt8) := times number item

/-- The shifted bytes of a payload have no bit in common, so their sum is what `|` makes of them. -/
def getInt (p0 p1 p2 p3 : UInt8) : Int :=
  Int.bmod (p0.toNat * 0x1000000 + p1.toNat * 0x10000 + p2.toNat * 0x100 + p3.toNat) 0x100000000

/-- The long integer of eight bytes, the last one first. -/
def getLong (p0 p1 p2 p3 p4 p5 p6 p7 : UInt8) : Int :=
  Int.bmod (p7.toNat * 0x100000000000000 + p6.toNat * 0x1000000000000 + p5.toNat * 0x10000000000
    + p4.toNat * 0x100000000 + p3.toNat * 0x1000000 + p2.toNat * 0x10000 + p1.toNat * 0x100 + p0.toNat)
    0x10000000000000000

/-- The next integer. -/
def nextInt : Reader UInt8 Int := do
  let p0 ← item
  let p1 ← item
  let p2 ← item
  let p3 ← item
  pure (getInt p0 p1 p2 p3)

/-- The next long integer. -/
def nextLong : Reader UInt8 Int := do
  let p0 ← item
  let p1 ← item
  let p2 ← item
  let p3 ← item
  let p4 ← item
  let p5 ← item
  let p6 ← item
  let p7 ← item
  pure (getLong p0 p1 p2 p3 p4 p5 p6 p7)

/-- `GetString`. The length is read as a `uint`. -/
def getString : Reader UInt8 String := do
  let size ← nextInt
  let payload ← dequeue (size % 0x100000000).toNat
  pure (Ascii.getString payload)

/-- An empty queue holds the empty string. -/
def nextString : Reader UInt8 String := fun buffer =>
  if buffer = [] then some ("", []) else getString buffer

/-- The next bytes behind their number. -/
def nextByteArray : Reader UInt8 (List UInt8) := do
  let size ← item
  dequeue size.toNat

/-- The next boolean. -/
def nextBoolean : Reader UInt8 Bool := do
  let payload ← item
  pure (payload ≠ 0)

/-- Zero ticks are read as `null`. -/
def nextTimeSpan : Reader UInt8 (Option Int) := do
  let tick ← nextLong
  pure (if tick = 0 then none else some tick)

/-- The count of a collection, then its elements. A negative count makes no turn of the loop. -/
def nextMany {α : Type} (deserialize : Reader UInt8 α) : Reader UInt8 (List α) := do
  let length ← nextInt
  times length.toNat deserialize

/-- The next strings behind their number. -/
def nextStringArray : Reader UInt8 (List String) := nextMany nextString

end ReadBufferContext

/-! ## Reading back what was written -/

section
open WriteBufferContext ReadBufferContext

/-- As many bytes as were written are taken. -/
theorem reads_dequeue (bytes : List UInt8) : Reads (dequeue bytes.length) bytes bytes := by
  have each : Reads (dequeue bytes.length) (bytes.flatMap fun b => [b]) (bytes.map id) :=
    Reads.times fun b _ => Reads.item b
  rwa [List.flatMap_singleton', List.map_id] at each

/-- The sum of the bytes of a value is the value, up to the width. -/
theorem bmod_bytes {value sum : Int} {w : Nat} (same : sum % w = value % w) (low : -w ≤ 2 * value)
    (high : 2 * value < w) : Int.bmod sum w = value := by
  rw [Int.bmod_def, same]
  have range : value % w = value ∨ value % w = value + w := by
    rcases lt_or_ge value 0 with negative | natural
    · exact .inr (by rw [← Int.add_emod_right]; exact Int.emod_eq_of_lt (by omega) (by omega))
    · exact .inl (Int.emod_eq_of_lt natural (by omega))
  split <;> omega

theorem getInt_bytes {it : Int} (isInt : IsInt it) :
    getInt (toByte (it / 0x1000000)) (toByte (it / 0x10000)) (toByte (it / 0x100)) (toByte it) = it := by
  obtain ⟨low, high⟩ := isInt
  unfold getInt
  apply bmod_bytes
  · simp only [toByte_toNat]
    omega
  · omega
  · omega

theorem getLong_bytes {l : Int} (isLong : IsLong l) :
    getLong (toByte l) (toByte (l / 0x100)) (toByte (l / 0x10000)) (toByte (l / 0x1000000)) (toByte (l / 0x100000000))
      (toByte (l / 0x10000000000)) (toByte (l / 0x1000000000000)) (toByte (l / 0x100000000000000)) = l := by
  obtain ⟨low, high⟩ := isLong
  unfold getLong
  apply bmod_bytes
  · simp only [toByte_toNat]
    omega
  · omega
  · omega

theorem reads_integer {it : Int} (isInt : IsInt it) : Reads nextInt (writeInteger it) it := by
  intro rest
  have value := getInt_bytes isInt
  exact congrArg (fun i => some (i, rest)) value

theorem reads_long {l : Int} (isLong : IsLong l) : Reads nextLong (writeLong l) l := by
  intro rest
  have value := getLong_bytes isLong
  exact congrArg (fun i => some (i, rest)) value

/-- A count is an integer. -/
theorem isInt_of_isCount {n : Nat} (isCount : IsCount n) : IsInt n := by
  unfold IsCount at isCount
  constructor <;> omega

theorem reads_boolean (i : Bool) : Reads nextBoolean (writeBoolean i) i := by
  intro rest
  cases i <;> rfl

/-- A string is read where there are bytes. -/
theorem nextString_of_ne_nil {buffer : List UInt8} (filled : buffer ≠ []) : nextString buffer = getString buffer :=
  if_neg filled

/-- A string is read back. -/
theorem reads_string {str : String} (isText : IsText str) : Reads nextString (writeString str) str := by
  have length : ((Ascii.getBytes str).length : Int) % 0x100000000 = (Ascii.getBytes str).length := by
    rw [Ascii.getBytes_length isText.ascii]
    have := isText.length
    unfold IsCount at this
    omega
  have size : Reads nextInt (writeInteger (Ascii.getBytes str).length) (Ascii.getBytes str).length := by
    apply reads_integer
    rw [Ascii.getBytes_length isText.ascii]
    exact isInt_of_isCount isText.length
  have payload := (reads_dequeue (Ascii.getBytes str)).map (f := Ascii.getString)
  rw [Ascii.getString_getBytes isText.ascii] at payload
  have read : Reads getString (writeString str) str := by
    refine size.bind ?_
    rw [length, Int.toNat_natCast]
    exact payload
  intro rest
  rw [nextString_of_ne_nil (by simp [writeString, writeInteger])]
  exact read rest

/-- A time span is read back, unless it is zero. -/
theorem reads_timeSpan {sp : Option Int} (isLong : ∀ ticks ∈ sp, IsLong ticks) (notZero : sp ≠ some 0) :
    Reads nextTimeSpan (writeTimeSpan sp) sp := by
  cases sp with
  | none => exact (reads_long (l := 0) (by decide)).map
  | some ticks =>
    have read := (reads_long (isLong ticks rfl)).map (f := fun tick => if tick = 0 then none else some tick)
    rwa [if_neg fun zero => notZero (congrArg some zero)] at read

/-- A collection is read as what its elements are read as. -/
theorem reads_many_as {α δ : Type} {serialize : δ → List UInt8} {deserialize : Reader UInt8 α} {value : δ → α}
    {lst : List δ} (isCount : IsCount lst.length) (each : ∀ d ∈ lst, Reads deserialize (serialize d) (value d)) :
    Reads (nextMany deserialize) (writeMany serialize lst) (lst.map value) := by
  refine (reads_integer (isInt_of_isCount isCount)).bind ?_
  rw [Int.toNat_natCast]
  exact Reads.times each

/-- A list is read back if each element is. -/
theorem reads_many {α : Type} {serialize : α → List UInt8} {deserialize : Reader UInt8 α} {lst : List α}
    (isCount : IsCount lst.length) (each : ∀ a ∈ lst, Reads deserialize (serialize a) a) :
    Reads (nextMany deserialize) (writeMany serialize lst) lst := by
  have read : Reads (nextMany deserialize) (writeMany serialize lst) (lst.map id) := reads_many_as isCount each
  rwa [List.map_id] at read

/-- The length of a byte array is read back only when it fits into its byte. -/
theorem reads_byteArray {b : List UInt8} (fits : b.length < 256) : Reads nextByteArray (writeByteArray b) b := by
  have size : (toByte b.length).toNat = b.length := by
    have value := toByte_toNat b.length
    omega
  have bytes := reads_dequeue b
  rw [← size] at bytes
  exact (Reads.item (toByte b.length)).bind bytes

end

/-! ## What a reader can make of a buffer -/

section
open ReadBufferContext

theorem pays_int : Pays nextInt fun _ => 4 := by
  refine Pays.item.bind fun _ => Pays.item.bind fun _ => Pays.item.bind fun _ => Pays.item.bind fun _ => Pays.pure ?_
  omega

theorem pays_long : Pays nextLong fun _ => 8 := by
  refine Pays.item.bind fun _ => Pays.item.bind fun _ => Pays.item.bind fun _ => Pays.item.bind fun _ =>
    Pays.item.bind fun _ => Pays.item.bind fun _ => Pays.item.bind fun _ => Pays.item.bind fun _ => Pays.pure ?_
  omega

theorem pays_boolean : Pays nextBoolean fun _ => 1 := by
  refine Pays.item.bind fun _ => Pays.pure ?_
  omega

theorem pays_timeSpan : Pays nextTimeSpan fun _ => 8 := by
  refine pays_long.bind fun _ => Pays.pure ?_
  omega

theorem pays_dequeue (number : Nat) : Pays (dequeue number) List.length := by
  refine (Pays.item.times number).mono fun bytes => ?_
  simp

/-- A string costs its characters, and its length when there is one to be read. -/
theorem pays_getString : Pays getString fun str => str.length + 4 := by
  refine pays_int.bind fun size => (pays_dequeue _).bind fun payload => Pays.pure ?_
  rw [Ascii.getString_length]
  omega

theorem pays_string : Pays nextString String.length := by
  intro buffer rest str read
  by_cases empty : buffer = []
  · obtain ⟨rfl, rfl⟩ : "" = str ∧ [] = rest := by simpa [nextString, empty] using read
    simp
  · rw [nextString_of_ne_nil empty] at read
    have paid : str.length + 4 + rest.length ≤ buffer.length := pays_getString buffer rest str read
    omega

theorem pays_many {α : Type} {deserialize : Reader UInt8 α} {cost : α → Nat} (paid : Pays deserialize cost) :
    Pays (nextMany deserialize) fun lst => (lst.map cost).sum := by
  refine pays_int.bind fun length => (paid.times _).mono fun lst => ?_
  omega

/-- Where every element takes at least one byte more than its cost, the list pays for its length too. -/
theorem pays_elements {α : Type} {deserialize : Reader UInt8 α} {cost : α → Nat}
    (paid : Pays deserialize fun a => cost a + 1) :
    Pays (nextMany deserialize) fun lst => (lst.map cost).sum + lst.length := by
  refine (pays_many paid).mono fun lst => ?_
  simp [List.sum_map_add]

/-- Every string read is ASCII. -/
theorem nextString_ascii {buffer rest : List UInt8} {str : String} (read : nextString buffer = some (str, rest)) :
    IsAscii str := by
  by_cases empty : buffer = []
  · obtain ⟨rfl, rfl⟩ : "" = str ∧ [] = rest := by simpa [nextString, empty] using read
    decide
  · rw [nextString_of_ne_nil empty] at read
    obtain ⟨size, _, _, tail⟩ := Reader.bind_eq_some.mp read
    obtain ⟨payload, _, _, made⟩ := Reader.bind_eq_some.mp tail
    obtain ⟨rfl, _⟩ := Reader.pure_eq_some.mp made
    exact Ascii.getString_ascii payload

end

end FaasNet.RaftConsensus
