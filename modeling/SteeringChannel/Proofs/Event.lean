import Mathlib.Data.List.Infix
import SteeringChannel.Proofs.Text.Trim
import SteeringChannel.Proofs.Text.Utf8
import SteeringChannel.Relay.Framing

/-!
Lines that announce events. The first keyword that occurs in a line decides, in a fixed order of the
keywords; and a line that is written for an event, and holds no keyword that comes before its own in
this order, is read as that event.
-/

namespace SteeringChannel.Event

open Relay (lineFeed)

def carriageReturn : UInt8 := 0x0d

theorem seek_eq_none {word line : List UInt8} (absent : ¬ word <:+: line) :
    seek word line = none := by
  induction line with
  | nil => rfl
  | cons byte rest ih =>
      have elsewhere : ¬ word.isPrefixOf (byte :: rest) = true := fun begins =>
        absent (List.isPrefixOf_iff_prefix.mp begins).isInfix
      have later : ¬ word <:+: rest := fun occurs =>
        absent (occurs.trans (List.suffix_cons byte rest).isInfix)
      rw [seek, if_neg elsewhere, ih later]

theorem seek_begins {word line : List UInt8} (filled : word ≠ []) (begins : word <+: line) :
    seek word line = some line := by
  cases line with
  | nil => exact absurd (List.prefix_nil.mp begins) filled
  | cons byte rest => rw [seek, if_pos (List.isPrefixOf_iff_prefix.mpr begins)]

def line (separator : UInt8) : Event → List UInt8
  | .keyDown code => keyDownWord ++ [separator, code]
  | .keyUp code => keyUpWord ++ [separator, code]
  | .pinInput raw => raw
  | .debugMessage text => Text.Utf8.encode text.toList

/-- Events that their own line can carry. -/
def Writable (separator : UInt8) : Event → Prop
  | .keyDown code | .keyUp code => separator ≠ lineFeed ∧ code ≠ lineFeed
  | .pinInput raw =>
      pinInputWord <+: raw ∧ lineFeed ∉ raw ∧ raw.getLast? ≠ some carriageReturn ∧
        (¬ keyDownWord <:+: raw) ∧ (¬ keyUpWord <:+: raw) ∧ raw.length ≤ 63
  | .debugMessage text =>
      "DEBUG".toList <+: text.toList ∧ '\n' ∉ text.toList ∧ text.toList.getLast? ≠ some '\r' ∧
        (∀ word ∈ [keyDownWord, keyUpWord, pinInputWord],
          ¬ word <:+: Text.Utf8.encode text.toList) ∧
        (Text.Utf8.encode text.toList).length ≤ 63

instance (separator : UInt8) (event : Event) : Decidable (event.Writable separator) :=
  match event with
  | .keyDown _ | .keyUp _ => inferInstanceAs (Decidable (_ ∧ _))
  | .pinInput _ => inferInstanceAs (Decidable (_ ∧ _))
  | .debugMessage _ => inferInstanceAs (Decidable (_ ∧ _))

variable {separator : UInt8} {event : Event}

theorem length_line (writable : event.Writable separator) :
    (event.line separator).length < lineLimit := by
  cases event with
  | keyDown code => exact (by decide : 9 < lineLimit)
  | keyUp code => exact (by decide : 7 < lineLimit)
  | pinInput raw => exact Nat.lt_succ_of_le writable.2.2.2.2.2
  | debugMessage text => exact Nat.lt_succ_of_le writable.2.2.2.2

theorem lineFeed_not_mem_line (writable : event.Writable separator) :
    lineFeed ∉ event.line separator := by
  have key {word : List UInt8} {code : UInt8} (free : lineFeed ∉ word)
      (ends : separator ≠ lineFeed ∧ code ≠ lineFeed) : lineFeed ∉ word ++ [separator, code] := by
    rw [List.mem_append, not_or]
    exact ⟨free, by simpa using ⟨ends.1.symm, ends.2.symm⟩⟩
  cases event with
  | keyDown code => exact key (by decide) writable
  | keyUp code => exact key (by decide) writable
  | pinInput raw => exact writable.2.1
  | debugMessage text => exact fun member => writable.2.1 (Text.Utf8.mem_encode (by decide) member)

theorem trimEnd_line {line : List UInt8} (unbroken : lineFeed ∉ line)
    (ends : line.getLast? ≠ some carriageReturn) : Text.trimEnd isTerminator line = line := by
  refine Text.trimEnd_eq fun last found => ?_
  have feed : last ≠ 0x0a := by
    rintro rfl
    exact unbroken (List.mem_of_getLast? found)
  have carriage : last ≠ 0x0d := by
    rintro rfl
    exact ends found
  simp [isTerminator, feed, carriage]

theorem seek_keyDown_keyUp (separator code : UInt8) :
    seek keyDownWord (keyUpWord ++ [separator, code]) = none := by
  refine seek_eq_none fun occurs => ?_
  have same := occurs.eq_of_length rfl
  simp [keyDownWord, keyUpWord] at same

theorem debugWord_begins {text : String} (begins : "DEBUG".toList <+: text.toList) :
    debugWord <+: Text.Utf8.encode text.toList := by
  obtain ⟨rest, whole⟩ := begins
  have word : Text.Utf8.encode "DEBUG".toList = debugWord := by decide
  rw [← whole, Text.Utf8.encode_append, word]
  exact List.prefix_append debugWord _

theorem ofLine_line (writable : event.Writable separator) :
    ofLine (event.line separator) = some event := by
  have whole : (event.line separator).take lineLimit = event.line separator :=
    List.take_of_length_le (Nat.le_of_lt (length_line writable))
  have unbroken := lineFeed_not_mem_line writable
  simp only [ofLine, whole]
  cases event with
  | keyDown code =>
      simp only [line, seek_begins (by decide : keyDownWord ≠ []) (List.prefix_append ..)]
      rfl
  | keyUp code =>
      simp only [line, seek_keyDown_keyUp,
        seek_begins (by decide : keyUpWord ≠ []) (List.prefix_append ..)]
      rfl
  | pinInput raw =>
      obtain ⟨begins, _, ends, noDown, noUp, _⟩ := writable
      have kept : Text.trimEnd isTerminator raw = raw := trimEnd_line unbroken ends
      simp only [line, seek_eq_none noDown, seek_eq_none noUp,
        seek_begins (by decide : pinInputWord ≠ []) begins, kept]
  | debugMessage text =>
      obtain ⟨begins, _, ends, free, _⟩ := writable
      simp only [List.forall_mem_cons] at free
      obtain ⟨noDown, noUp, noPin, _⟩ := free
      have kept : Text.trimEnd isTerminator (Text.Utf8.encode text.toList) =
          Text.Utf8.encode text.toList :=
        trimEnd_line unbroken fun last => ends (Text.Utf8.getLast_encode (by decide) last)
      simp only [line, seek_eq_none noDown, seek_eq_none noUp, seek_eq_none noPin,
        seek_begins (by decide : debugWord ≠ []) (debugWord_begins begins), kept,
        Text.Utf8.decodeLossy_encode, String.ofList_toList]

end SteeringChannel.Event
