import SupplyAudit.NumeralText
import SupplyAudit.TraceInspection

/-!
# Harmony addresses

The scripts print an address as a bech32 text of prefix `one` and read it back.
Reading checks the checksum, that no padding bit is set and that the payload has
20 bytes.
-/

namespace HarmonyAddress

open ByteWords NumeralText TraceInspection

def charset : List Char := "qpzry9x8gf2tvdw0s3jn54khce6mua7l".toList

def generators : List Nat := [0x3B6A57B2, 0x26508E6D, 0x1EA119FA, 0x3D4233DD, 0x2A1462B3]

/-- One step of the checksum. -/
def polymodStep (checksum value : Nat) : Nat :=
  let top := checksum >>> 25
  generators.zipIdx.foldl
    (fun checksum (generator, index) =>
      if (top >>> index) &&& 1 = 1 then checksum ^^^ generator else checksum)
    (((checksum &&& 0x1FFFFFF) <<< 5) ^^^ value)

def bech32Polymod (values : List Nat) : Nat := values.foldl polymodStep 1

def hrpExpand (hrp : List Char) : List Nat :=
  hrp.map (fun c => c.toNat >>> 5) ++ [0] ++ hrp.map (fun c => c.toNat &&& 31)

/-- The inner loop: groups that are complete leave the accumulator. -/
def emitGroups (accumulator toBits : Nat) : Nat → Nat → List Nat → Nat × List Nat
  | 0, bits, output => (bits, output)
  | fuel + 1, bits, output =>
    if toBits ≤ bits then
      emitGroups accumulator toBits fuel (bits - toBits)
        (output ++ [(accumulator >>> (bits - toBits)) &&& ((1 <<< toBits) - 1)])
    else (bits, output)

structure BitState where
  accumulator : Nat := 0
  bits : Nat := 0
  output : List Nat := []

def pushBits (fromBits toBits : Nat) (s : BitState) (value : Nat) : BitState :=
  let accumulator := (s.accumulator <<< fromBits) ||| value
  let (bits, output) := emitGroups accumulator toBits (s.bits + fromBits) (s.bits + fromBits) s.output
  ⟨accumulator, bits, output⟩

/-- The bits that are left after the last complete group, filled up with zeros. -/
def BitState.rest (s : BitState) (toBits : Nat) : Nat :=
  (s.accumulator <<< (toBits - s.bits)) &&& ((1 <<< toBits) - 1)

/-- `convert_bits` of the readers, which refuses padding that is not zero. -/
def convertBits (values : List Nat) (fromBits toBits : Nat) : Option (List Nat) :=
  let s := values.foldl (pushBits fromBits toBits) {}
  if s.bits ≠ 0 ∧ s.rest toBits ≠ 0 then none else some s.output

/-- `convert_bits` of the writer, which pads. -/
def convertBitsPadded (values : List Nat) (fromBits toBits : Nat) : List Nat :=
  let s := values.foldl (pushBits fromBits toBits) {}
  if s.bits ≠ 0 then s.output ++ [s.rest toBits] else s.output

inductive AddressError where
  | invalid (value : String)
  | symbol
  | checksum (value : String)
  | padding
  | length (value : String)
  | digits
  | bytes (address : String)
  deriving DecidableEq

def AddressError.text : AddressError → String
  | .invalid value => "invalid Harmony address '" ++ value ++ "'"
  | .symbol => "substring not found"
  | .checksum value => "invalid Harmony address checksum '" ++ value ++ "'"
  | .padding => "nonzero address padding"
  | .length value => "invalid Harmony address length '" ++ value ++ "'"
  | .digits => "non-hexadecimal number found in fromhex() arg"
  | .bytes address => "address is not 20 bytes: " ++ address

/-- The human-readable part and the symbols around the last `1`. -/
def splitSeparator (value : List Char) : List Char × List Char :=
  let separator := value.length - 1 - value.reverse.idxOf '1'
  (value.take separator, value.drop (separator + 1))

def symbolIndex (c : Char) : Except AddressError Nat :=
  if c ∈ charset then .ok (charset.idxOf c) else .error .symbol

/-- `decode_address` on a bech32 text. -/
def decodeBech32 (value : String) : Except AddressError String := do
  let (hrp, symbols) := splitSeparator value.toList
  let data ← symbols.mapM symbolIndex
  if data.length < 6 ∨ bech32Polymod (hrpExpand hrp ++ data) ≠ 1 then .error (.checksum value)
  else
    match convertBits (data.take (data.length - 6)) 5 8 with
    | none => .error .padding
    | some decoded =>
      if decoded.length ≠ 20 then .error (.length value)
      else .ok (prefixedHex (decoded.map UInt8.ofNat))

/-- `decode_address`; an absent address is empty. -/
def decodeAddress (lower : String → String) : Option String → Except AddressError String
  | none => .ok ""
  | some value =>
    if "0x".toList.isPrefixOf value.toList then .ok (lower value)
    else if value ≠ lower value ∨ ¬ "one1".toList.isPrefixOf value.toList then
      .error (.invalid value)
    else decodeBech32 value

/-- The six symbols of the checksum. -/
def checksumSymbols (data : List Nat) : List Nat :=
  let polymod := bech32Polymod (hrpExpand "one".toList ++ data ++ List.replicate 6 0) ^^^ 1
  (List.range 6).map fun index => (polymod >>> (5 * (5 - index))) &&& 31

def charsetAt (value : Nat) : Char := charset.getD value 'q'

/-- `address.removeprefix("0x")` -/
def withoutPrefix (address : String) : List Char :=
  if "0x".toList.isPrefixOf address.toList then address.toList.drop 2 else address.toList

def toBech32 (address : String) : Except AddressError String :=
  match fromHex (withoutPrefix address) with
  | none => .error .digits
  | some raw =>
    if raw.length ≠ 20 then .error (.bytes address)
    else
      let data := convertBitsPadded (raw.map UInt8.toNat) 8 5
      .ok ("one1" ++ String.ofList ((data ++ checksumSymbols data).map charsetAt))

end HarmonyAddress
