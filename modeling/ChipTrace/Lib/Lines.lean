/-
Texts cut into lines that keep their newline, and the bytes a text takes.
-/
import ChipTrace.Lib.Text
import Mathlib.Algebra.BigOperators.Group.List.Basic
import Mathlib.Algebra.GroupWithZero.Nat

namespace Text

/-- The size of a text in UTF-8. -/
def byteLength (chars : List Char) : Nat := (chars.map Char.utf8Size).sum

def trimStart (chars : List Char) : List Char := chars.dropWhile isWhitespace

/-- The pieces of a text up to and with each newline; nothing follows the last one. -/
def splitInclusive : List Char → List (List Char)
  | [] => []
  | c :: rest =>
      if c = '\n' then [c] :: splitInclusive rest
      else
        match splitInclusive rest with
        | [] => [[c]]
        | piece :: pieces => (c :: piece) :: pieces

/-- The line without its newline and the carriage returns before it. -/
def lineOf (piece : List Char) : List Char :=
  (if piece.getLast? = some '\n' then piece.dropLast else piece).rdropWhile (· == '\r')

/-- A text that a line can hold. -/
def OneLine (text : List Char) : Prop := ∀ c ∈ text, c ≠ '\n' ∧ c ≠ '\r'

instance (text : List Char) : Decidable (OneLine text) :=
  List.decidableBAll (fun c => c ≠ '\n' ∧ c ≠ '\r') text

@[simp] theorem byteLength_nil : byteLength [] = 0 := rfl

@[simp] theorem byteLength_append (left right : List Char) :
    byteLength (left ++ right) = byteLength left + byteLength right := by
  simp [byteLength]

theorem byteLength_pos {text : List Char} (hne : text ≠ []) : 0 < byteLength text := by
  cases text with
  | nil => exact absurd rfl hne
  | cons c rest =>
      have hc : 0 < c.utf8Size := c.utf8Size_pos
      simp only [byteLength, List.map_cons, List.sum_cons]
      omega

/-- The pieces are the whole text. -/
theorem flatten_splitInclusive (text : List Char) : (splitInclusive text).flatten = text := by
  induction text with
  | nil => rfl
  | cons c rest ih =>
      rw [splitInclusive]
      split_ifs with hc
      · rw [List.flatten_cons, ih, List.singleton_append]
      · cases hpieces : splitInclusive rest with
        | nil =>
            rw [hpieces] at ih
            simp [← ih]
        | cons piece pieces =>
            rw [hpieces, List.flatten_cons] at ih
            rw [List.flatten_cons, List.cons_append, ih]

theorem ne_nil_of_mem_splitInclusive {text piece : List Char}
    (hmem : piece ∈ splitInclusive text) : piece ≠ [] := by
  induction text generalizing piece with
  | nil => cases hmem
  | cons c rest ih =>
      rw [splitInclusive] at hmem
      split_ifs at hmem with hc
      · cases hmem with
        | head => exact List.cons_ne_nil _ _
        | tail _ hmem => exact ih hmem
      · cases hpieces : splitInclusive rest with
        | nil =>
            rw [hpieces, List.mem_singleton] at hmem
            rw [hmem]
            exact List.cons_ne_nil _ _
        | cons first pieces =>
            rw [hpieces] at hmem ih
            cases hmem with
            | head => exact List.cons_ne_nil _ _
            | tail _ hmem => exact ih (List.mem_cons_of_mem _ hmem)

/-- A newline ends the first piece. -/
theorem splitInclusive_line {line : List Char} (hline : ∀ c ∈ line, c ≠ '\n')
    (rest : List Char) :
    splitInclusive (line ++ '\n' :: rest) = (line ++ ['\n']) :: splitInclusive rest := by
  induction line with
  | nil => rfl
  | cons c more ih =>
      have hc : c ≠ '\n' := hline c List.mem_cons_self
      rw [List.cons_append, splitInclusive, if_neg hc,
        ih fun d hd => hline d (List.mem_cons_of_mem c hd)]
      rfl

theorem rdropWhile_return {text : List Char} (htext : OneLine text) :
    text.rdropWhile (· == '\r') = text := by
  apply List.rdropWhile_eq_self_iff.mpr
  intro hne hlast
  exact (htext _ (List.getLast_mem hne)).2 (by simpa using hlast)

/-- A line end is a newline, with a carriage return before it or not. -/
def lineEnd (crlf : Bool) : List Char := if crlf then ['\r', '\n'] else ['\n']

theorem splitInclusive_lineEnd {text : List Char} (htext : OneLine text) (crlf : Bool)
    (rest : List Char) :
    splitInclusive (text ++ lineEnd crlf ++ rest) =
      (text ++ lineEnd crlf) :: splitInclusive rest := by
  have hplain : ∀ c ∈ text, c ≠ '\n' := fun c hc => (htext c hc).1
  cases crlf with
  | false =>
      rw [lineEnd, if_neg Bool.false_ne_true, List.append_assoc, List.singleton_append]
      exact splitInclusive_line hplain rest
  | true =>
      have hreturn : ∀ c ∈ text ++ ['\r'], c ≠ '\n' := by
        intro c hc
        rw [List.mem_append, List.mem_singleton] at hc
        cases hc with
        | inl hc => exact hplain c hc
        | inr hc => simp [hc]
      have hsplit := splitInclusive_line hreturn rest
      simpa [lineEnd] using hsplit

/-- The text of a line is read back, whatever ends it. -/
theorem lineOf_lineEnd {text : List Char} (htext : OneLine text) (crlf : Bool) :
    lineOf (text ++ lineEnd crlf) = text := by
  cases crlf with
  | false => simpa [lineOf, lineEnd] using rdropWhile_return htext
  | true =>
      have hcut : text ++ ['\r', '\n'] = (text ++ ['\r']) ++ ['\n'] := by simp
      have hreturn : (text ++ ['\r']).rdropWhile (· == '\r') = text := by
        rw [List.rdropWhile_concat_pos _ _ _ (by decide)]
        exact rdropWhile_return htext
      rw [lineOf, lineEnd, if_pos rfl, hcut, List.getLast?_concat, if_pos rfl,
        List.dropLast_concat]
      exact hreturn

end Text
