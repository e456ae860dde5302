import OmniSpacetimeDb.Proofs.Varint
import OmniSpacetimeDb.Proofs.Store

/-! Rows read back as they were written. Replaying the payload of a transaction
therefore does to the replicated map what the transaction did to its keys. -/

namespace OmniSpacetimeDb.Proofs.RowCodec
open Foundations Datastore Store

theorem fromUtf8_utf8 (text : String) : fromUtf8 (utf8 text) = some text := by
  unfold fromUtf8 utf8 String.fromUTF8?
  rw [dif_pos text.isValidUTF8]
  rfl

/-- The length of the text survives the cast to `u32`. -/
def FitsU32 (text : String) : Prop := (utf8 text).length < 2 ^ 32

instance (text : String) : Decidable (FitsU32 text) := inferInstanceAs (Decidable (_ < _))

theorem FitsU32.length {text : String} (fits : FitsU32 text) :
    (UInt32.ofNat (utf8 text).length).toNat = (utf8 text).length := UInt32.toNat_ofNat_of_lt' fits

theorem readExact_decodes (bytes : List UInt8) : (readExact bytes.length).Decodes bytes bytes := by
  intro rest
  have enough : bytes.length ≤ (bytes ++ rest).length := by simp
  simp only [StateT.run, readExact, if_pos enough, List.take_left, List.drop_left]

/-- Any part of the bytes that stops short is too short for the buffer. -/
theorem readExact_frames (bytes : List UInt8) :
    Reader.Frames .unexpectedEof (readExact bytes.length) bytes bytes where
  decodes := readExact_decodes bytes
  starves part isPart short := by
    have shorter : ¬ bytes.length ≤ part.length := fun enough => short (isPart.eq_of_length_le enough)
    simp only [StateT.run, readExact, if_neg shorter]

theorem decodeUtf8_decodes (text message : String) : (decodeUtf8 (utf8 text) message).Decodes [] text := by
  rw [decodeUtf8, fromUtf8_utf8]
  exact .pure text

section
variable [BuildProfile]

theorem readExampleRow_decodes {row : ExampleRow} (key : FitsU32 row.key) (value : FitsU32 row.value) :
    readExampleRow.Decodes (serializeExampleRow row) row := by
  have parts : serializeExampleRow row =
      writeVarint (.ofNat (utf8 row.key).length) ++ (utf8 row.key ++ ([] ++
      (writeVarint (.ofNat (utf8 row.value).length) ++ (utf8 row.value ++ ([] ++ []))))) := by
    simp only [serializeExampleRow, List.append_nil, List.nil_append, List.append_assoc]
  rw [parts]
  apply (Varint.readVarint_writeVarint _).bind
  rw [key.length]
  apply (readExact_decodes _).bind
  apply (decodeUtf8_decodes _ _).bind
  apply (Varint.readVarint_writeVarint _).bind
  rw [value.length]
  apply (readExact_decodes _).bind
  apply (decodeUtf8_decodes _ _).bind
  exact .pure row

theorem deserialize_serialize {row : ExampleRow} (key : FitsU32 row.key) (value : FitsU32 row.value) :
    deserializeExampleRow (serializeExampleRow row) = .ok row := (readExampleRow_decodes key value).whole

end
end OmniSpacetimeDb.Proofs.RowCodec
