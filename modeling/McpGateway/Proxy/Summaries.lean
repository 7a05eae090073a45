import McpGateway.Proxy.Discovery

namespace McpGateway.Proxy

def endsSentence (bytes : ByteArray) (i : Nat) : Bool :=
  bytes[i]? == some 0x2E && bytes[i + 1]? == some 0x20

def sentenceEnd (bytes : ByteArray) : Option Nat :=
  (List.range (bytes.size - 1)).find? (endsSentence bytes)

def ellipsis : ByteArray := "...".toByteArray

def truncateSummary (bytes : ByteArray) : ByteArray :=
  if bytes.size ≤ maxSummaryLen then bytes else bytes.extract 0 (maxSummaryLen - 3) ++ ellipsis

-- extractSummary on the bytes of the description, which Go neither decodes nor checks.
def summaryBytes (bytes : ByteArray) : ByteArray :=
  match sentenceEnd bytes with
  | some i => if i + 1 ≤ maxSummaryLen then bytes.extract 0 (i + 1) else truncateSummary bytes
  | none => truncateSummary bytes

def IsFirstSentence (bytes summary : ByteArray) : Prop :=
  ∃ i, endsSentence bytes i ∧ (∀ j < i, ¬endsSentence bytes j) ∧ summary = bytes.extract 0 (i + 1)

structure Summarizes (bytes summary : ByteArray) : Prop where
  valid : summary.IsValidUTF8
  short : summary.size ≤ maxSummaryLen
  form : summary = bytes ∨ IsFirstSentence bytes summary ∨ ∃ size, summary = bytes.extract 0 size ++ ellipsis

/-- The first sentence is short enough, or the whole text is, or it can be cut between two characters. -/
def CutsBetween (description : String) : Prop :=
  (∃ i < maxSummaryLen, endsSentence description.toByteArray i) ∨ description.toByteArray.size ≤ maxSummaryLen ∨
    ∃ front back, description = front ++ back ∧ front.utf8ByteSize = maxSummaryLen - 3

theorem endsSentence_lt {bytes : ByteArray} {i : Nat} (ends : endsSentence bytes i) : i + 1 < bytes.size := by
  by_contra outside
  have beyond : bytes[i + 1]? = none := getElem?_neg _ _ outside
  simp [endsSentence, beyond] at ends

theorem sentenceEnd_some {bytes : ByteArray} {i : Nat} (found : sentenceEnd bytes = some i) :
    endsSentence bytes i ∧ ∀ j < i, ¬endsSentence bytes j := by
  obtain ⟨ends, _, prior⟩ := List.find?_range_eq_some.mp found
  exact ⟨ends, fun j less => by simpa using prior j less⟩

theorem sentenceEnd_none {bytes : ByteArray} (missing : sentenceEnd bytes = none) (i : Nat) :
    ¬endsSentence bytes i := by
  intro ends
  have inside := endsSentence_lt ends
  exact List.find?_eq_none.mp missing i (List.mem_range.mpr (by omega)) ends

theorem valid_extract {bytes : ByteArray} (valid : bytes.IsValidUTF8) {i : Nat} (inside : i < bytes.size)
    (ascii : bytes[i].IsUTF8FirstByte) : (bytes.extract 0 i).IsValidUTF8 := by
  have position : String.Pos.Raw.IsValid (String.ofByteArray bytes valid) ⟨i⟩ :=
    String.Pos.Raw.isValid_iff_isUTF8FirstByte.mpr (.inr ⟨inside, ascii⟩)
  exact position.isValidUTF8_extract_zero

theorem valid_cut_iff (description : String) (long : maxSummaryLen < description.toByteArray.size) :
    (description.toByteArray.extract 0 (maxSummaryLen - 3) ++ ellipsis).IsValidUTF8 ↔
      ∃ front back, description = front ++ back ∧ front.utf8ByteSize = maxSummaryLen - 3 := by
  have size : (description.toByteArray.extract 0 (maxSummaryLen - 3)).size = maxSummaryLen - 3 := by
    rw [ByteArray.size_extract]
    omega
  have position : (description.toByteArray.extract 0 (maxSummaryLen - 3)).IsValidUTF8 ↔
      String.Pos.Raw.IsValid description ⟨maxSummaryLen - 3⟩ := by
    rw [String.Pos.Raw.isValid_iff_isValidUTF8_extract_zero]
    exact (and_iff_right (String.Pos.Raw.le_iff.mpr (show maxSummaryLen - 3 ≤ description.toByteArray.size by omega))).symm
  have same : (∃ front back, description = front ++ back ∧ front.utf8ByteSize = maxSummaryLen - 3) ↔
      String.Pos.Raw.IsValid description ⟨maxSummaryLen - 3⟩ := by
    rw [String.Pos.Raw.isValid_iff_exists_append]
    refine exists_congr fun front => exists_congr fun back => and_congr_right fun _ => ?_
    rw [String.Pos.Raw.ext_iff]
    exact eq_comm
  rw [same, ← position]
  constructor
  · intro valid
    have inside : maxSummaryLen - 3 < (description.toByteArray.extract 0 (maxSummaryLen - 3) ++ ellipsis).size := by
      rw [ByteArray.size_append, size]
      exact Nat.lt_add_of_pos_right (by decide)
    have dot : (description.toByteArray.extract 0 (maxSummaryLen - 3) ++ ellipsis)[maxSummaryLen - 3].IsUTF8FirstByte := by
      rw [ByteArray.getElem_append_right size.le]
      simp only [size, Nat.sub_self]
      exact (by decide : ∀ inside : 0 < ellipsis.size, ellipsis[0].IsUTF8FirstByte) (by decide)
    have cut := valid_extract valid inside dot
    rwa [ByteArray.extract_append_eq_left size.symm] at cut
  · exact fun valid => valid.append (String.isValidUTF8 _)

theorem truncateSummary_short (bytes : ByteArray) : (truncateSummary bytes).size ≤ maxSummaryLen := by
  unfold truncateSummary
  split_ifs with short
  · exact short
  · have dots : ellipsis.size = 3 := by decide
    have limit : maxSummaryLen = 100 := rfl
    rw [ByteArray.size_append, ByteArray.size_extract, dots]
    omega

theorem summaryBytes_cases (bytes : ByteArray) :
    (∃ i < maxSummaryLen, endsSentence bytes i ∧ (∀ j < i, ¬endsSentence bytes j) ∧
        summaryBytes bytes = bytes.extract 0 (i + 1)) ∨
      ((∀ i < maxSummaryLen, ¬endsSentence bytes i) ∧ summaryBytes bytes = truncateSummary bytes) := by
  unfold summaryBytes
  cases found : sentenceEnd bytes with
  | none => exact .inr ⟨fun i _ => sentenceEnd_none found i, rfl⟩
  | some i =>
    obtain ⟨ends, first⟩ := sentenceEnd_some found
    by_cases short : i + 1 ≤ maxSummaryLen
    · exact .inl ⟨i, short, ends, first, if_pos short⟩
    · exact .inr ⟨fun j less => first j (by omega), if_neg short⟩

/-- What is returned is always a short form of the description, and it is valid text exactly if nothing has to be cut or
the cut is between two characters. -/
theorem summary_valid_iff (description : String) :
    Summarizes description.toByteArray (summaryBytes description.toByteArray) ↔ CutsBetween description := by
  have whole : description.toByteArray.IsValidUTF8 := String.isValidUTF8 description
  rcases summaryBytes_cases description.toByteArray with ⟨i, short, ends, first, same⟩ | ⟨none, same⟩ <;> rw [same]
  · refine iff_of_true ⟨?_, ?_, .inr (.inl ⟨i, ends, first, rfl⟩)⟩ (.inl ⟨i, short, ends⟩)
    · have inside := endsSentence_lt ends
      refine valid_extract whole inside (.inl ?_)
      have space : description.toByteArray[i + 1]? = some 0x20 := by
        simpa using (Bool.and_eq_true_iff.mp ends).2
      rw [getElem?_pos description.toByteArray (i + 1) inside, Option.some_inj] at space
      rw [space]
      decide
    · rw [ByteArray.size_extract]
      omega
  · have short := truncateSummary_short description.toByteArray
    unfold truncateSummary at short ⊢
    split_ifs at short ⊢ with fits
    · exact iff_of_true ⟨whole, fits, .inl rfl⟩ (.inr (.inl fits))
    · have long : maxSummaryLen < description.toByteArray.size := not_le.mp fits
      constructor
      · exact fun summarizes => .inr (.inr ((valid_cut_iff description long).mp summarizes.valid))
      · rintro (⟨i, less, ends⟩ | fitting | between)
        · exact absurd ends (none i less)
        · exact absurd fitting fits
        · exact ⟨(valid_cut_iff description long).mpr between, short, .inr (.inr ⟨_, rfl⟩)⟩

namespace Accented

def description : String := String.ofList (List.replicate 96 'a' ++ ['é', 'b', 'b', 'b'])

end Accented

-- The cut leaves the first byte of the letter in front of the dots, where the second belongs.
theorem cut_letter_invalid : (summaryBytes Accented.description.toByteArray)[96]? = some 0xC3 ∧
      (summaryBytes Accented.description.toByteArray)[97]? = some 0x2E ∧
      ¬(summaryBytes Accented.description.toByteArray).IsValidUTF8 := by
  decide +kernel

end McpGateway.Proxy
