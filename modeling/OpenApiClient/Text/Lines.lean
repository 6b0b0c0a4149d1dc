import OpenApiClient.Text.Basic

/-! # Lines of a text

A line ends with a line feed, a carriage return, both in this order, a vertical tab, a form feed,
one of the three upper separators of the control range, the next-line character, or the line or
paragraph separator. -/
namespace OpenApiClient.Text

def isLineBreak (c : Char) : Bool :=
  let n := c.toNat
  (10 ≤ n && n ≤ 13) || (28 ≤ n && n ≤ 30) || n == 0x85 || n == 0x2028 || n == 0x2029

/-- The lines of a character list, without their ends. A break at the very end opens no further
line. -/
def lineChars : List Char → List (List Char)
  | [] => []
  | '\r' :: '\n' :: rest => [] :: lineChars rest
  | c :: rest =>
    if isLineBreak c then [] :: lineChars rest
    else
      match lineChars rest with
      | [] => [[c]]
      | first :: others => (c :: first) :: others

/-- The lines of a text, without their ends. -/
def lines (s : String) : List String := (lineChars s.toList).map String.ofList

/-- Every line but the first moved to the right, empty lines left empty. -/
def indentRest (width : Nat) (s : String) : String :=
  match lines (s ++ "\n") with
  | [] => ""
  | first :: others =>
    String.intercalate "\n"
      (first :: others.map fun l => if l.isEmpty then l else spaces width ++ l)

/-- A text without line breaks is one line, or none when it is empty. -/
theorem lineChars_eq_singleton {cs : List Char} (h : ∀ c ∈ cs, isLineBreak c = false)
    (hne : cs ≠ []) : lineChars cs = [cs] := by
  induction cs with
  | nil => exact absurd rfl hne
  | cons c rest ih =>
    have hc : isLineBreak c = false := h c List.mem_cons_self
    have hr : ∀ c ∈ rest, isLineBreak c = false := fun d hd => h d (List.mem_cons_of_mem _ hd)
    have hcr : c ≠ '\r' := by rintro rfl; simp [isLineBreak] at hc
    rw [lineChars.eq_def]
    split
    · simp_all
    · simp_all
    · rename_i d rest' _ heq
      obtain ⟨rfl, rfl⟩ : c = d ∧ rest = rest' := by simpa using heq
      rw [if_neg (by simp [hc])]
      cases rest with
      | nil => simp [lineChars]
      | cons e more => rw [ih hr (by simp)]

/-- No line holds a character that ends lines. -/
theorem not_isLineBreak_of_mem_lineChars {cs l : List Char} (hl : l ∈ lineChars cs) {c : Char}
    (hc : c ∈ l) : isLineBreak c = false := by
  fun_induction lineChars cs generalizing l with
  | case1 => simp at hl
  | case2 rest ih =>
    rcases List.mem_cons.mp hl with rfl | hl
    · simp at hc
    · exact ih hl hc
  | case3 d rest _ hd ih =>
    rcases List.mem_cons.mp hl with rfl | hl
    · simp at hc
    · exact ih hl hc
  | case4 d rest _ hd he ih =>
    obtain rfl : l = [d] := by simpa using hl
    obtain rfl : c = d := by simpa using hc
    simpa using hd
  | case5 d rest _ hd first others he ih =>
    rcases List.mem_cons.mp hl with rfl | hl
    · rcases List.mem_cons.mp hc with rfl | hc
      · simpa using hd
      · exact ih (he ▸ List.mem_cons_self) hc
    · exact ih (he ▸ List.mem_cons_of_mem _ hl) hc

end OpenApiClient.Text
