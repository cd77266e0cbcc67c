/-!
# Blank and control characters

White space is Unicode's White_Space property and control characters are its
general category Cc. Trimming and blankness are defined from white space
alone, so a text is blank exactly when trimming leaves nothing.
-/

set_option autoImplicit false

namespace Wiretap.Text

def isSpace (c : Char) : Bool :=
  let n := c.toNat
  (9 ≤ n && n ≤ 13) || n == 0x20 || n == 0x85 || n == 0xA0 || n == 0x1680 ||
  (0x2000 ≤ n && n ≤ 0x200A) || n == 0x2028 || n == 0x2029 || n == 0x202F ||
  n == 0x205F || n == 0x3000

def isControl (c : Char) : Bool :=
  c.toNat ≤ 0x1F || (0x7F ≤ c.toNat && c.toNat ≤ 0x9F)

def trimChars (cs : List Char) : List Char :=
  ((cs.dropWhile isSpace).reverse.dropWhile isSpace).reverse

def trim (s : String) : String := String.ofList (trimChars s.toList)

def isBlank (s : String) : Bool := s.toList.all isSpace

def hasSpace (s : String) : Bool := s.toList.any isSpace

theorem dropWhile_concat_ne_nil (cs : List Char) {c : Char} (h : ¬ isSpace c = true) :
    (cs ++ [c]).dropWhile isSpace ≠ [] := by
  induction cs with
  | nil =>
    rw [List.nil_append, List.dropWhile_cons_of_neg h]
    exact List.cons_ne_nil _ _
  | cons d cs ih =>
    rw [List.cons_append, List.dropWhile_cons]
    split
    · exact ih
    · exact List.cons_ne_nil _ _

/-- A text is blank exactly when trimming leaves nothing of it. -/
theorem trimChars_eq_nil {cs : List Char} :
    trimChars cs = [] ↔ cs.all isSpace = true := by
  induction cs with
  | nil => simp [trimChars]
  | cons c cs ih =>
    by_cases h : isSpace c
    · simpa [trimChars, h] using ih
    · have kept := dropWhile_concat_ne_nil cs.reverse h
      rw [← List.reverse_cons] at kept
      refine iff_of_false ?_ (by simp [h])
      rw [trimChars, List.dropWhile_cons_of_neg h, List.reverse_eq_nil_iff]
      exact kept

end Wiretap.Text
