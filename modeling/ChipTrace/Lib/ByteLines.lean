/-
The lines of a byte string, each with its newline where it has one.
-/
import ChipTrace.Lib.Utf8Check

namespace Bytes

/-- The bytes cut behind every newline. -/
def pieces : Bytes → List Bytes
  | [] => []
  | b :: rest =>
      if b = 10 then [b] :: pieces rest
      else
        match pieces rest with
        | [] => [[b]]
        | piece :: more => (b :: piece) :: more

theorem pieces_line {line : Bytes} (hline : 10 ∉ line) (rest : Bytes) :
    pieces (line ++ 10 :: rest) = (line ++ [10]) :: pieces rest := by
  induction line with
  | nil => rfl
  | cons b more ih =>
      rw [List.mem_cons, not_or] at hline
      rw [List.cons_append, pieces, if_neg (Ne.symm hline.1), ih hline.2, List.cons_append]

theorem pieces_last {line : Bytes} (hline : 10 ∉ line) (hne : line ≠ []) :
    pieces line = [line] := by
  induction line with
  | nil => exact absurd rfl hne
  | cons b more ih =>
      rw [List.mem_cons, not_or] at hline
      rw [pieces, if_neg (Ne.symm hline.1)]
      cases more with
      | nil => rfl
      | cons c others => rw [ih hline.2 (List.cons_ne_nil c others)]

/-- Bytes have one first line. -/
theorem first_line_inj {line other rest more : Bytes} (hline : 10 ∉ line) (hother : 10 ∉ other)
    (heq : line ++ 10 :: rest = other ++ 10 :: more) : line = other := by
  have hpieces := congrArg pieces heq
  rw [pieces_line hline, pieces_line hother] at hpieces
  exact List.append_cancel_right (List.cons.inj hpieces).1

/-- The bytes up to the newline that is found first. -/
theorem take_findIdx? {bytes : Bytes} {index : Nat}
    (hindex : bytes.findIdx? (· == 10) = some index) :
    index < bytes.length ∧ 10 ∉ bytes.take index ∧
      bytes.take (index + 1) = bytes.take index ++ [10] := by
  obtain ⟨hlt, hnewline, hbefore⟩ := List.findIdx?_eq_some_iff_getElem.mp hindex
  refine ⟨hlt, ?_, ?_⟩
  · intro hmem
    obtain ⟨i, hi, hget⟩ := List.mem_take_iff_getElem.mp hmem
    exact hbefore i (by omega) (by simp [hget])
  · rw [List.take_succ_eq_append_getElem hlt, eq_of_beq hnewline]

/-- Bytes are nothing, a line without a newline, or a line and what follows it. -/
theorem pieces_induction {motive : Bytes → Prop} (hnil : motive [])
    (hlast : ∀ line, 10 ∉ line → line ≠ [] → motive line)
    (hline : ∀ line rest, 10 ∉ line → motive rest → motive (line ++ 10 :: rest))
    (content : Bytes) : motive content := by
  induction hlength : content.length using Nat.strong_induction_on generalizing content with
  | _ length ih =>
      by_cases hmem : (10 : UInt8) ∈ content
      · obtain ⟨line, rest, rfl, hnot⟩ := List.eq_append_cons_of_mem hmem
        rw [List.length_append, List.length_cons] at hlength
        exact hline line rest hnot (ih rest.length (by omega) rest rfl)
      · by_cases hempty : content = []
        · rw [hempty]
          exact hnil
        · exact hlast content hmem hempty

theorem flatten_pieces (content : Bytes) : (pieces content).flatten = content := by
  induction content using pieces_induction with
  | hnil => rfl
  | hlast line hline hne => rw [pieces_last hline hne, List.flatten_singleton]
  | hline line rest hline ih =>
      rw [pieces_line hline, List.flatten_cons, ih, List.append_assoc, List.singleton_append]

/-- Bytes are valid when every line is. -/
theorem valid_iff_pieces (content : Bytes) :
    Valid content ↔ ∀ piece ∈ pieces content, Valid piece := by
  induction content using pieces_induction with
  | hnil => simp [pieces, valid_nil]
  | hlast line hline hne => simp [pieces_last hline hne]
  | hline line rest hline ih =>
      rw [pieces_line hline, valid_append_ascii (by decide), ih, List.forall_mem_cons]

end Bytes
