/-
Devices in documents.

* `exactDelay`: delays that may be no numbers. These are given by their bits.
* `AffineDelays.codec`: the numbers that describe a device. Those that are
  left out are the standard ones.
-/
import Datapath.Document.Codec
import Datapath.Target.Affine
import Datapath.Text.Digits

namespace Datapath

open Document

/-- Two operand widths, as a list. -/
def operandWidths : Codec (Nat × Nat) := tuple <| Prod.mk
  <$> field "x" (natural 32) Prod.fst
  <*> field "y" (natural 32) Prod.snd

/-- Delays, as numbers of seconds. One that is no number is the text of its
bits, in hexadecimal digits after `0x`. -/
def exactDelay : Codec Delay where
  write d := if d.isNumber then delay.write d else .text ("0x" ++ Text.hexPadded 16 d.bits.toNat)
  read?
    | format, v => match v with
      | .text s => match s.toList with
        | '0' :: 'x' :: digits => (Text.digits? 16 digits).map (⟨.ofNat ·⟩)
        | _ => none
      | v => delay.read? format v

/-- The numbers that describe a device. -/
def AffineDelays.codec : Codec AffineDelays := record <| AffineDelays.mk
  <$> fieldOr (some standard.lutInputs) "lut_inputs" (natural 32) (·.lutInputs)
  <*> fieldOr (some standard.lut) "lut" exactDelay (·.lut)
  <*> fieldOr (some standard.wire) "wire" exactDelay (·.wire)
  <*> fieldOr (some standard.wirePerLoad) "wire_fanout" exactDelay (·.wirePerLoad)
  <*> fieldOr (some standard.adder) "adder" exactDelay (·.adder)
  <*> fieldOr (some standard.adderPerBit) "adder_bit" exactDelay (·.adderPerBit)
  <*> fieldOr (some standard.register) "ff" exactDelay (·.register)
  <*> fieldOr (some standard.lateChunk) "slack_size" (natural 32) (·.lateChunk)
  <*> fieldOr (some standard.firstChunk) "base_size" (natural 32) (·.firstChunk)
  <*> fieldOr (some standard.hasBlocks) "has_dsp" boolean (·.hasBlocks)
  <*> fieldOr (some standard.signedBlock) "dsp_signed" operandWidths (·.signedBlock)
  <*> fieldOr (some standard.unsignedBlock) "dsp_unsigned" operandWidths (·.unsignedBlock)
  <*> fieldOr (some standard.block) "dsp_delay" exactDelay (·.block)
  <*> fieldOr (some standard.memoryBits) "mem" (natural 64) (·.memoryBits)

end Datapath
