import SteeringChannel.Proofs.Text.Utf8
import SteeringChannel.Settings.EnvFile

/-!
The lines of a file. A text is read back whole from its bytes, wherever the pieces cut its characters,
and its lines end at a line feed, a carriage return or the two together, and nowhere else.
-/

namespace SteeringChannel.EnvFile

/-- Whatever is carried over from one piece to the next is the beginning of the next character. -/
theorem decodePieces_encode (fuel : Nat) {text : List Char} {pending bytes : List UInt8}
    (whole : pending ++ bytes = Text.Utf8.encode text)
    (enough : (bytes.length + (pieceSize - 1)) / pieceSize < fuel) :
    decodePieces pending fuel bytes = (text, none) := by
  induction fuel generalizing text pending bytes with
  | zero => exact absurd enough (Nat.not_lt_zero _)
  | succ fuel ih =>
      cases empty : bytes.isEmpty with
      | true =>
          obtain rfl := List.isEmpty_iff.mp empty
          rw [List.append_nil] at whole
          simp [decodePieces, whole, Text.Utf8.decodeFrom_encode]
      | false =>
          have filled : 0 < bytes.length :=
            List.length_pos_iff.mpr (List.isEmpty_eq_false_iff.mp empty)
          have fewer : ((bytes.drop pieceSize).length + (pieceSize - 1)) / pieceSize < fuel := by
            rw [List.length_drop]
            simp only [pieceSize] at enough ⊢
            omega
          have parted : (pending ++ bytes.take pieceSize) ++ bytes.drop pieceSize =
              Text.Utf8.encode text := by
            rw [List.append_assoc, List.take_append_drop, whole]
          obtain ⟨before, after, part, rfl, piece, rest, decoded⟩ :=
            Text.Utf8.decodeFrom_cut text 0 parted
          rw [decodePieces]
          rcases decoded with ⟨rfl, decoded⟩ | ⟨fault, decoded, cause, place⟩
          · rw [decoded]
            simp [empty, ih rest fewer]
          · have carried : (pending ++ bytes.take pieceSize).drop fault.position = part := by
              rw [piece, place, Nat.zero_add, List.drop_left]
            rw [decoded]
            simp [empty, cause, carried, ih rest fewer]

theorem readLines_encode (text : List Char) :
    readLines (Text.Utf8.encode text) = (splitLines text, none) := by
  have enough : ((Text.Utf8.encode text).length + (pieceSize - 1)) / pieceSize <
      (Text.Utf8.encode text).length / pieceSize + 2 := by
    simp only [pieceSize]
    omega
  rw [readLines, decodePieces_encode _ (List.nil_append _) enough]

def Unbroken (line : List Char) : Prop := '\n' ∉ line ∧ '\r' ∉ line

/-- A text as the lines that end in it, and what is left after the last of them unless it is
nothing. A line feed right after a carriage return belongs to the same end. -/
inductive SplitsInto : List Char → List (List Char) → Prop
  | nothing : SplitsInto [] []
  | unfinished {line} : line ≠ [] → Unbroken line → SplitsInto line [line]
  | lineFeed {line text lines} : Unbroken line → SplitsInto text lines →
      SplitsInto (line ++ '\n' :: text) (line :: lines)
  | carriageReturn {line text lines} : Unbroken line → text.head? ≠ some '\n' →
      SplitsInto text lines → SplitsInto (line ++ '\r' :: text) (line :: lines)
  | together {line text lines} : Unbroken line → SplitsInto text lines →
      SplitsInto (line ++ '\r' :: '\n' :: text) (line :: lines)

theorem unbroken_cons {letter : Char} {line : List Char} :
    Unbroken (letter :: line) ↔ (letter ≠ '\n' ∧ letter ≠ '\r') ∧ Unbroken line := by
  have apart (mark : Char) : mark ∉ letter :: line ↔ letter ≠ mark ∧ mark ∉ line := by
    rw [List.mem_cons, not_or, ne_comm]
  rw [Unbroken, apart, apart, and_and_and_comm, Unbroken]

theorem splitLines_cons {letter : Char} (plain : letter ≠ '\n' ∧ letter ≠ '\r')
    (rest : List Char) : splitLines (letter :: rest) =
      match splitLines rest with
      | [] => [[letter]]
      | line :: others => (letter :: line) :: others := by
  rw [splitLines]
  · cases splitLines rest <;> simp [plain.1, plain.2]
  · exact fun _ same _ => plain.2 same

theorem splitLines_append {line rest : List Char} {others : List (List Char)}
    (unbroken : Unbroken line) (ends : splitLines rest = [] :: others) :
    splitLines (line ++ rest) = line :: others := by
  induction line with
  | nil => exact ends
  | cons letter line ih =>
      obtain ⟨plain, unbroken⟩ := unbroken_cons.mp unbroken
      rw [List.cons_append, splitLines_cons plain, ih unbroken]

theorem splitLines_unbroken {line : List Char} (filled : line ≠ []) (unbroken : Unbroken line) :
    splitLines line = [line] := by
  induction line with
  | nil => exact absurd rfl filled
  | cons letter line ih =>
      obtain ⟨plain, unbroken⟩ := unbroken_cons.mp unbroken
      rw [splitLines_cons plain]
      cases line with
      | nil => rfl
      | cons next line => rw [ih (List.cons_ne_nil next line) unbroken]

theorem SplitsInto.splitLines_eq {text : List Char} {lines : List (List Char)}
    (splits : SplitsInto text lines) : splitLines text = lines := by
  induction splits with
  | nothing => rfl
  | unfinished filled unbroken => exact splitLines_unbroken filled unbroken
  | lineFeed unbroken _ ih =>
      refine splitLines_append unbroken ?_
      rw [splitLines, ih]
      · simp
      · exact nofun
  | carriageReturn unbroken single _ ih =>
      refine splitLines_append unbroken ?_
      rw [splitLines, ih]
      · simp
      · exact fun rest _ same => single (by simp [same])
  | together unbroken _ ih => exact splitLines_append unbroken (by rw [splitLines, ih])

theorem SplitsInto.cons {letter : Char} {text line : List Char} {others : List (List Char)}
    (plain : letter ≠ '\n' ∧ letter ≠ '\r') (splits : SplitsInto text (line :: others)) :
    SplitsInto (letter :: text) ((letter :: line) :: others) := by
  cases splits with
  | unfinished filled unbroken =>
      exact .unfinished (List.cons_ne_nil _ _) (unbroken_cons.mpr ⟨plain, unbroken⟩)
  | lineFeed unbroken rest => exact .lineFeed (unbroken_cons.mpr ⟨plain, unbroken⟩) rest
  | carriageReturn unbroken single rest =>
      exact .carriageReturn (unbroken_cons.mpr ⟨plain, unbroken⟩) single rest
  | together unbroken rest => exact .together (unbroken_cons.mpr ⟨plain, unbroken⟩) rest

theorem splitsInto_splitLines (text : List Char) : SplitsInto text (splitLines text) := by
  have empty : Unbroken [] := ⟨List.not_mem_nil, List.not_mem_nil⟩
  fun_induction splitLines text with
  | case1 => exact .nothing
  | case2 rest ih => exact .together empty ih
  | case3 letter rest single ends ih =>
      simp only [Bool.or_eq_true, decide_eq_true_eq] at ends
      rcases ends with rfl | rfl
      · exact .lineFeed empty ih
      · refine .carriageReturn empty (fun starts => ?_) ih
        obtain ⟨others, rfl⟩ := List.head?_eq_some_iff.mp starts
        exact single others rfl rfl
  | case4 letter rest single plain none ih =>
      simp only [Bool.or_eq_true, decide_eq_true_eq, not_or] at plain
      rw [none] at ih
      cases ih
      exact .unfinished (List.cons_ne_nil _ _) (unbroken_cons.mpr ⟨plain, empty⟩)
  | case5 letter rest single plain line others some ih =>
      simp only [Bool.or_eq_true, decide_eq_true_eq, not_or] at plain
      exact .cons plain (some ▸ ih)

theorem splitsInto_iff {text : List Char} {lines : List (List Char)} :
    SplitsInto text lines ↔ splitLines text = lines :=
  ⟨SplitsInto.splitLines_eq, fun same => same ▸ splitsInto_splitLines text⟩

end SteeringChannel.EnvFile
