/-! # Texts and their characters

The functions work on character lists, so that every law about them is an induction on the text. -/
namespace OpenApiClient.Text

/-! ## Cutting character lists -/

def trim (p : Char → Bool) (cs : List Char) : List Char :=
  ((cs.dropWhile p).reverse.dropWhile p).reverse

/-- The stretches between the characters that satisfy `p`, empty ones included: one more than there
are such characters. -/
def fields (p : Char → Bool) : List Char → List (List Char)
  | [] => [[]]
  | c :: rest =>
    if p c then [] :: fields p rest
    else
      match fields p rest with
      | [] => [[c]]
      | first :: others => (c :: first) :: others

/-- The stretches that are not empty. -/
def runs (p : Char → Bool) (cs : List Char) : List (List Char) :=
  (fields p cs).filter (!·.isEmpty)

def occurs (needle : List Char) : List Char → Bool
  | [] => needle.isEmpty
  | c :: rest => needle.isPrefixOf (c :: rest) || occurs needle rest

/-- The fields of a text between the occurrences of one character. -/
def splitAt (separator : Char) (s : String) : List String :=
  (fields (· == separator) s.toList).map String.ofList

/-- The last field of a text: all after the last occurrence of the character, or the whole text. -/
def lastField (separator : Char) (s : String) : String :=
  String.ofList (s.toList.reverse.takeWhile (· != separator)).reverse

def startsWith (s start : String) : Bool := start.toList.isPrefixOf s.toList

def endsWith (s ending : String) : Bool := ending.toList.isSuffixOf s.toList

def spaces (count : Nat) : String := String.ofList (List.replicate count ' ')

def dropEnd (count : Nat) (s : String) : String :=
  String.ofList (s.toList.take (s.toList.length - count))

/-- What a test of every character of a text finds. -/
theorem forall_mem_of_all {p : Char → Prop} [DecidablePred p] {cs : List Char}
    (h : cs.all (decide <| p ·) = true) : ∀ c ∈ cs, p c :=
  fun c hc => of_decide_eq_true (List.all_eq_true.mp h c hc)

theorem fields_ne_nil (p : Char → Bool) (cs : List Char) : fields p cs ≠ [] := by
  cases cs with
  | nil => simp [fields]
  | cons c rest => rw [fields]; split <;> (try split) <;> simp

/-- No character of a field is a separator. -/
theorem not_of_mem_fields {p : Char → Bool} {cs f : List Char} (hf : f ∈ fields p cs) {c : Char}
    (hc : c ∈ f) : p c = false := by
  induction cs generalizing f with
  | nil =>
    simp only [fields, List.mem_singleton] at hf
    simp [hf] at hc
  | cons d rest ih =>
    rw [fields] at hf
    split at hf
    · rcases List.mem_cons.mp hf with rfl | hf
      · simp at hc
      · exact ih hf hc
    · rename_i hd
      have hd : p d = false := by simpa using hd
      split at hf
      · rename_i he
        exact absurd he (fields_ne_nil p rest)
      · rename_i first others he
        rcases List.mem_cons.mp hf with rfl | hf
        · rcases List.mem_cons.mp hc with rfl | hc
          · exact hd
          · exact ih (he ▸ List.mem_cons_self) hc
        · exact ih (he ▸ List.mem_cons_of_mem _ hf) hc

/-! ## White space

Blank are the spaces of every width, the line and paragraph breaks, and the four separators of
records in the control range. -/

def isBlank (c : Char) : Bool :=
  let n := c.toNat
  (9 ≤ n && n ≤ 13) || (28 ≤ n && n ≤ 32) || n == 0x85 || n == 0xa0 || n == 0x1680 ||
    (0x2000 ≤ n && n ≤ 0x200a) || n == 0x2028 || n == 0x2029 || n == 0x202f || n == 0x205f ||
    n == 0x3000

def strip (s : String) : String := String.ofList (trim isBlank s.toList)

/-- The words of a text: its longest stretches without white space. -/
def words (s : String) : List String := (runs isBlank s.toList).map String.ofList

/-- The text with single spaces between its words and none at its ends. -/
def singleSpaced (s : String) : String := String.intercalate " " (words s)

/-! ## Lone halves

A document may escape one half of a pair alone. Characters are whole, so such a half is kept as one of
the last 2048 characters, which are for private use: a text that has one of these is taken to have the
half. No bytes encode it. -/

/-- The character of a code, which may be that of a half. -/
def ofCode (code : Nat) : Char :=
  if 0xd800 ≤ code ∧ code ≤ 0xdfff then Char.ofNat (0x10f800 + (code - 0xd800))
  else Char.ofNat code

def isHalf (c : Char) : Bool := 0x10f800 ≤ c.toNat

def code (c : Char) : Nat := if isHalf c then 0xd800 + (c.toNat - 0x10f800) else c.toNat

/-- The bytes of a text, which has none if it holds a lone half. -/
def bytes? (s : String) : Option ByteArray :=
  if s.toList.any isHalf then none else some s.toUTF8

private theorem toNat_lt (c : Char) : c.toNat < 0x110000 := by
  rcases c.valid with h | h
  · exact Nat.lt_trans h (by decide)
  · exact h.2

theorem code_lt (c : Char) : code c < 0x110000 := by
  have hlt := toNat_lt c
  unfold code
  split <;> omega

theorem ofCode_code (c : Char) : ofCode (code c) = c := by
  have hlt := toNat_lt c
  have hvalid : c.toNat < 0xd800 ∨ 0xdfff < c.toNat := c.valid.imp id And.left
  unfold code
  split
  · rename_i hhalf
    have hlow : 0x10f800 ≤ c.toNat := by simpa [isHalf] using hhalf
    have hcode : 0x10f800 + (0xd800 + (c.toNat - 0x10f800) - 0xd800) = c.toNat := by omega
    rw [ofCode, if_pos (by omega), hcode, Char.ofNat_toNat]
  · rw [ofCode, if_neg (by omega), Char.ofNat_toNat]

/-! ## Text without tags

A tag is a stretch from `<` to the next `>` with something in between. -/

/-- Whether a tag starts before the characters: one of them comes before the first `>`. -/
def opensTag (rest : List Char) : Bool := rest.head? != some '>' && rest.contains '>'

mutual

def outsideTags : List Char → List Char
  | [] => []
  | c :: rest => if c = '<' ∧ opensTag rest = true then insideTag rest else c :: outsideTags rest

/-- The characters outside of tags after the rest of a tag. -/
def insideTag : List Char → List Char
  | [] => []
  | c :: rest => if c = '>' then outsideTags rest else insideTag rest

end

/-- The words of a text without its tags, with single spaces between them. -/
def plain (s : String) : String := singleSpaced (String.ofList (outsideTags s.toList))

/-! ## Sets of characters given by sorted intervals of code points -/

/-- Closed intervals of code points in increasing order. -/
abbrev Intervals := List (Nat × Nat)

/-- Whether a code point lies in one of the intervals; the search ends at the first interval above
it. -/
def Intervals.covers : Intervals → Nat → Bool
  | [], _ => false
  | (a, b) :: rest, n => if n < a then false else n ≤ b || Intervals.covers rest n

def Intervals.contains (table : Intervals) (c : Char) : Bool := table.covers c.toNat

/-- A code point found in the table lies in one of its intervals. -/
theorem Intervals.exists_of_covers {table : Intervals} {n : Nat} (h : table.covers n = true) :
    ∃ r ∈ table, r.1 ≤ n ∧ n ≤ r.2 := by
  induction table with
  | nil => simp [Intervals.covers] at h
  | cons r rest ih =>
    obtain ⟨a, b⟩ := r
    rw [Intervals.covers] at h
    split at h
    · simp at h
    · rename_i hge
      rcases Bool.or_eq_true_iff.mp h with h | h
      · exact ⟨(a, b), List.mem_cons_self, Nat.le_of_not_lt hge, of_decide_eq_true h⟩
      · obtain ⟨r, hr, hle⟩ := ih h
        exact ⟨r, List.mem_cons_of_mem _ hr, hle⟩

end OpenApiClient.Text
