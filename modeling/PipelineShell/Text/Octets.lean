import PipelineShell.Text.Utf8

/-!
Texts as rows of bytes. Below the shell a text is a row of bytes. It is kept as a string in which each
byte stands as the character of its number, so that ASCII reads as itself and nothing is lost
(`toBytes_ofBytes`).
-/

set_option autoImplicit false

namespace PipelineShell.Octets

def ofBytes (bytes : List UInt8) : String := String.ofList (bytes.map fun b => Char.ofNat b.toNat)

def toBytes (octets : String) : List UInt8 := octets.toList.map fun c => UInt8.ofNat c.toNat

def ofText (text : String) : String := ofBytes (Utf8.encode text)

def toText (octets : String) : String := Utf8.decode (toBytes octets)

theorem toBytes_ofBytes (bytes : List UInt8) : toBytes (ofBytes bytes) = bytes := by
  simp only [toBytes, ofBytes, String.toList_ofList, List.map_map]
  rw [List.map_congr_left (g := id), List.map_id]
  intro b _
  have h : b.toNat.isValidChar := Or.inl (by have := b.toNat_lt; omega)
  have same : (Char.ofNat b.toNat).toNat = b.toNat := by rw [Char.ofNat, dif_pos h]; rfl
  simp [Function.comp, same]

end PipelineShell.Octets
