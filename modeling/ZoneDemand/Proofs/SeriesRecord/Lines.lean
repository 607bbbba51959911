import Mathlib.Logic.Function.Basic
import ZoneDemand.Proofs.SeriesRecord.RoundTrip

/-!
# The line of a record

A line holds no control character, so it never breaks.  A record has one line, which is
read back as that record, however the text was spelled from which the record was read
first: writing what was read gives all texts of a record one line, and texts of different
records different lines.
-/

namespace ZoneDemand
namespace SeriesRecord

/-! ## Printable text -/

/-- Without control characters, among which are the line ends. -/
def Printable (text : List Char) : Prop := ∀ c ∈ text, 0x20 ≤ c.toNat

@[simp] theorem printable_nil : Printable [] := by simp [Printable]

@[simp] theorem printable_cons_iff {c : Char} {text : List Char} :
    Printable (c :: text) ↔ 0x20 ≤ c.toNat ∧ Printable text :=
  List.forall_mem_cons

@[simp] theorem printable_append_iff {before after : List Char} :
    Printable (before ++ after) ↔ Printable before ∧ Printable after :=
  List.forall_mem_append

theorem printable_flatMap {α : Type} {parts : List α} {f : α → List Char}
    (hparts : ∀ part ∈ parts, Printable (f part)) : Printable (parts.flatMap f) := by
  intro c hc
  obtain ⟨part, hpart, hmem⟩ := List.mem_flatMap.mp hc
  exact hparts part hpart c hmem

theorem Printable.newline_not_mem {text : List Char} (h : Printable text) : '\n' ∉ text := by
  intro hmem
  have hnewline := h '\n' hmem
  simp at hnewline

/-- A control character is written as letters and digits, any other stands for itself. -/
theorem printable_escapeChar (c : Char) : Printable (escapeChar c) := by
  have hdigit : ∀ n < 16, 0x20 ≤ n.digitChar.toNat := by decide
  unfold escapeChar
  iterate 7
    split
    · simp
  split
  · rename_i hcontrol
    have hhigh := hdigit (c.toNat / 16) (by omega)
    have hlow := hdigit (c.toNat % 16) (by omega)
    rw [Json.hexDigits_of_control hcontrol]
    simp [hhigh, hlow]
  · rename_i hprintable
    simpa using hprintable

@[simp] theorem printable_stringChars (text : String) : Printable (stringChars text) := by
  have hescaped : Printable (text.toList.flatMap escapeChar) :=
    printable_flatMap fun c _ => printable_escapeChar c
  simp [stringChars, hescaped]

@[simp] theorem printable_numberChars (n : Nat) : Printable (numberChars n) := by
  intro c hc
  have hdigit := Nat.isDigit_of_mem_toDigits (by decide) (by decide) hc
  have hlow : '0'.toNat ≤ c.toNat := (Char.isDigit_iff_toNat.mp hdigit).1
  exact Nat.le_trans (by decide) hlow

@[simp] theorem printable_listChars (numbers : List Nat) : Printable (listChars numbers) := by
  cases numbers with
  | nil => simp [listChars, List.intercalate]
  | cons n ns =>
      have htail : Printable (tailChars ns) := printable_flatMap fun m _ => by simp
      rw [listChars, intercalate_numberChars]
      simp [htail]

theorem printable_encode (r : SeriesRecord) : Printable r.encode.toList := by
  rw [encode, String.toList_ofList]
  cases hcat : r.cat <;> simp [toChars, hcat]

/-! ## One line for each record -/

/-- Every record has a line, which never breaks and is read back as the record.  A text from
which a record is read, in whatever spelling, has the line of that record, and only records
that are equal have the same line. -/
theorem encode_canonical :
    (∀ r : SeriesRecord, Printable r.encode.toList ∧ '\n' ∉ r.encode.toList ∧
      decode r.encode = .ok r) ∧
      (∀ text r, decode text = .ok r → decode r.encode = .ok r) ∧
      Function.Injective encode := by
  refine ⟨fun r => ⟨printable_encode r, (printable_encode r).newline_not_mem, decode_encode r⟩,
    fun _ r _ => decode_encode r, ?_⟩
  intro r other hsame
  have hdecoded := decode_encode r
  rw [hsame, decode_encode other, Except.ok.injEq] at hdecoded
  exact hdecoded.symm

/-- Members in another order, one of them unknown, blanks between them, and characters that
are spelled as escapes. -/
def spelledRecord : String :=
  " \x7b\"cat\" : null, \"x\": [\x7b\"y\": [1e999, \"\\ud800\"]\x7d],\n" ++
    "\"target\": [18446744073709551615, 0], \"start\": \"\\u0041\\ud83d\\ude00\\/\"\x7d "

theorem decode_spelledRecord :
    decode spelledRecord = .ok ⟨"A😀/", [18446744073709551615, 0], none⟩ := by
  have hsome : (decode spelledRecord).toOption =
      some ⟨"A😀/", [18446744073709551615, 0], none⟩ := by decide +kernel
  cases hdecode : decode spelledRecord with
  | error fault => simp [hdecode, Except.toOption] at hsome
  | ok r => simpa [hdecode, Except.toOption] using hsome

theorem spelledRecord_canonical :
    decode spelledRecord = .ok ⟨"A😀/", [18446744073709551615, 0], none⟩ ∧
      decode (encode ⟨"A😀/", [18446744073709551615, 0], none⟩) =
        .ok ⟨"A😀/", [18446744073709551615, 0], none⟩ :=
  ⟨decode_spelledRecord, encode_canonical.2.1 spelledRecord _ decode_spelledRecord⟩

end SeriesRecord
end ZoneDemand
