import Wiretap.Json.Reader
import Wiretap.Json.Writer

/-! What is written for a value is read as that value, and reading stops where the text of the value
ends. Only a number could go on in what follows it; behind a value in a document stands a comma, a
closing bracket or nothing. -/

set_option autoImplicit false

namespace Wiretap.Json

inductive Closed : Text → Prop
  | done : Closed []
  | comma (rest : Text) : Closed (',' :: rest)
  | bracket (rest : Text) : Closed (']' :: rest)
  | brace (rest : Text) : Closed ('\x7d' :: rest)

structure Reads {α : Type} (value : Reader α) (text : Text) (a : α) : Prop where
  opened : ∃ c cs, text = c :: cs ∧ isBlank c = false ∧ c ≠ ',' ∧ c ≠ ']'
  read : ∀ rest, Closed rest → value (text ++ rest) = .ok (a, rest)

section
variable {α : Type} {value : Reader α} {c : Char} {cs rest : Text} {n bound : Nat}

theorem skip_plain (h : isBlank c = false) : skip (c :: cs) = c :: cs := by
  rw [skip, List.dropWhile_cons_of_neg (by simp [h])]

theorem hexUnit_low {n : Nat} (h : n < 256) (rest : Text) :
    hexUnit ('0' :: '0' :: lowerDigit (n / 16) :: lowerDigit (n % 16) :: rest) = .ok (n, rest) := by
  have hone (d : Nat) (hd : d < 16) :
      hexDigit? (lowerDigit d) = some d ∧ (lowerDigit d).utf8Size = 1 := by
    revert d
    decide
  obtain ⟨hhigh, hhighSize⟩ := hone (n / 16) (by omega)
  obtain ⟨hlow, hlowSize⟩ := hone (n % 16) (by omega)
  have hzero : hexDigit? '0' = some 0 ∧ ('0' : Char).utf8Size = 1 := by decide
  simp [hexUnit, hhigh, hlow, hhighSize, hlowSize, hzero]
  omega

theorem unicodeEscape_low (h : c.toNat < 0x20) (rest : Text) :
    unicodeEscape ('0' :: '0' :: lowerDigit (c.toNat / 16) :: lowerDigit (c.toNat % 16) :: rest) =
      .ok (c, rest) := by
  rw [unicodeEscape, hexUnit_low (show c.toNat < 256 by omega)]
  show (if 0xDC00 ≤ c.toNat ∧ c.toNat ≤ 0xDFFF then _ else _) = _
  rw [if_neg (by omega), if_pos (.inl (by omega)), Char.ofNat_toNat]

/-- One step reads what a character is written as. -/
theorem stringFrom_escape (fuel : Nat) (seen : List Char) (c : Char) (rest : Text) :
    stringFrom (fuel + 1) seen (escapeChar c ++ rest) = stringFrom fuel (c :: seen) rest := by
  unfold escapeChar
  iterate 7
    split
    · next h =>
      subst h
      rfl
  split
  · next h =>
    simp only [List.cons_append, List.nil_append, stringFrom, unicodeEscape_low h]
    rfl
  · next hquote hslash _ _ _ _ _ hlow =>
    simp only [List.singleton_append, stringFrom, if_neg hquote, if_neg hslash, if_neg hlow]

theorem stringFrom_escapes (fuel : Nat) (seen cs : List Char) (rest : Text)
    (h : cs.length < fuel) :
    stringFrom fuel seen (cs.flatMap escapeChar ++ '"' :: rest) =
      .ok (seen.reverse ++ cs, rest) := by
  induction cs generalizing fuel seen with
  | nil =>
    obtain ⟨fuel, rfl⟩ := Nat.exists_eq_add_one.mpr (Nat.zero_lt_of_lt h)
    rw [List.append_nil]
    rfl
  | cons c cs ih =>
    obtain ⟨fuel, rfl⟩ := Nat.exists_eq_add_one.mpr (Nat.zero_lt_of_lt h)
    rw [List.flatMap_cons, List.append_assoc, stringFrom_escape,
      ih _ _ (Nat.lt_of_succ_lt_succ h), List.reverse_cons, List.append_assoc,
      List.singleton_append]

theorem escapeChar_pos (c : Char) : 0 < (escapeChar c).length := by
  unfold escapeChar
  repeat' split
  all_goals exact Nat.zero_lt_succ _

theorem length_le_pieces {β : Type} {f : β → Text} (h : ∀ b, 0 < (f b).length) (bs : List β) :
    bs.length ≤ (bs.flatMap f).length := by
  induction bs with
  | nil => exact Nat.le_refl _
  | cons b bs ih =>
    have hb := h b
    rw [List.flatMap_cons, List.length_append, List.length_cons]
    omega

theorem quoted_append (cs : List Char) (rest : Text) :
    quoted cs ++ rest = '"' :: (cs.flatMap escapeChar ++ '"' :: rest) := by
  rw [quoted, List.append_assoc, List.cons_append, List.singleton_append]

theorem stringTail_escapes (cs : List Char) (rest : Text) :
    stringTail (cs.flatMap escapeChar ++ '"' :: rest) = .ok (cs, rest) := by
  have hfuel := length_le_pieces escapeChar_pos cs
  rw [stringTail, stringFrom_escapes _ _ _ _ (by rw [List.length_append]; omega)]
  rfl

theorem isDigit_range (h : isDigit c = true) : 48 ≤ c.toNat ∧ c.toNat ≤ 57 := by
  simpa [isDigit, Char.le_def, UInt32.le_iff_toNat_le] using h

theorem mem_nat (h : c ∈ nat n) : isDigit c = true :=
  Nat.isDigit_of_mem_toDigits (by decide) (by decide) h

/-- A numeral has no zeros in front of other digits. -/
theorem nat_cons (n : Nat) :
    ∃ c cs, nat n = c :: cs ∧ isDigit c = true ∧ (c = '0' → cs = []) := by
  induction n using Nat.strongRecOn with
  | ind n ih =>
    obtain hn | hn := Nat.lt_or_ge n 10
    · have hone : nat n = [n.digitChar] := Nat.toDigits_of_lt_base hn
      exact ⟨_, _, hone, mem_nat (hone ▸ List.mem_cons_self ..), fun _ => rfl⟩
    · obtain ⟨c, cs, hfront, hc, hzero⟩ := ih (n / 10) (by omega)
      have hmore : nat n = c :: (cs ++ [(n % 10).digitChar]) := by
        rw [nat, Nat.toDigits_of_base_le (by decide) hn]
        exact congrArg (· ++ _) hfront
      refine ⟨c, _, hmore, hc, fun h => ?_⟩
      subst h
      rw [hzero rfl] at hfront
      have hnone : n / 10 = 0 := by
        rw [← Nat.ofDigitChars_ten_toDigits (n := n / 10), ← nat, hfront]
        rfl
      omega

theorem appendDigits_fit {s : Nat} {ds : List Char} (h : Nat.ofDigitChars 10 ds s < Nat.pow 2 64) :
    appendDigits s ds = (Nat.ofDigitChars 10 ds s, []) := by
  induction ds generalizing s with
  | nil => rfl
  | cons d ds ih =>
    rw [Nat.ofDigitChars_cons] at h ⊢
    have hlonger : 10 * s + (d.toNat - 48) ≤ Nat.ofDigitChars 10 ds (10 * s + (d.toNat - 48)) := by
      rw [Nat.ofDigitChars_eq_ofDigitChars_zero]
      exact Nat.le_add_right_of_le (Nat.le_mul_of_pos_left _ (Nat.pow_pos (by decide)))
    rw [appendDigits, if_pos (Nat.lt_of_le_of_lt hlonger h)]
    exact ih h

theorem numberTail_nat (hn : n < Nat.pow 2 64) (hrest : Closed rest) :
    numberTail true (nat n ++ rest) = .ok (.natural n, rest) := by
  obtain ⟨c, cs, hcons, hc, hzero⟩ := nat_cons n
  have hvalue : appendDigits 0 (nat n) = (n, []) := by
    rw [nat, appendDigits_fit (by rwa [Nat.ofDigitChars_ten_toDigits]),
      Nat.ofDigitChars_ten_toDigits]
  have htaken : (nat n ++ rest).takeWhile isDigit = nat n := by
    rw [List.takeWhile_append_of_pos fun c => mem_nat]
    cases hrest <;> exact List.append_nil _
  have hleft : (nat n ++ rest).dropWhile isDigit = rest := by
    rw [List.dropWhile_append_of_pos fun c => mem_nat]
    cases hrest <;> rfl
  have hfirst : (decide (c = '0') && (cs ++ rest).head?.any isDigit) = false := by
    by_cases h : c = '0'
    · rw [hzero h]
      cases hrest <;> simp [isDigit]
    · simp [h]
  rw [hcons] at htaken hleft hvalue ⊢
  rw [List.cons_append] at htaken hleft ⊢
  simp only [numberTail, hc, hfirst, htaken, hleft, hvalue]
  cases hrest <;> rfl

theorem digit_opens (h : isDigit c = true) :
    isBlank c = false ∧ c ≠ ',' ∧ c ≠ ']' ∧ c ≠ '-' := by
  have hrange := isDigit_range h
  have hne {d : Char} (hd : d.toNat < 48 ∨ 57 < d.toNat) : c ≠ d := by
    rintro rfl
    omega
  refine ⟨?_, hne (by decide), hne (by decide), hne (by decide)⟩
  simp [isBlank, hne]

theorem natural_nat (hn : n < bound) (hbound : bound ≤ Nat.pow 2 64) :
    Reads (natural bound) (nat n) n where
  opened := by
    obtain ⟨c, cs, hcons, hc, -⟩ := nat_cons n
    obtain ⟨hblank, hcomma, hbracket, -⟩ := digit_opens hc
    exact ⟨c, cs, hcons, hblank, hcomma, hbracket⟩
  read := by
    intro rest hrest
    obtain ⟨c, cs, hcons, hc, -⟩ := nat_cons n
    obtain ⟨hblank, -, -, hminus⟩ := digit_opens hc
    have hread := numberTail_nat (Nat.lt_of_lt_of_le hn hbound) hrest
    rw [hcons, List.cons_append] at hread ⊢
    simp only [natural, skip_plain hblank]
    split
    · rw [hread]
      exact if_pos hn
    · next h => exact absurd hc h

theorem string_quoted (cs : List Char) (rest : Text) :
    string (quoted cs ++ rest) = .ok (cs, rest) := by
  rw [quoted_append, string, skip_plain (by decide)]
  exact stringTail_escapes cs rest

theorem quoted_opened (cs : List Char) :
    ∃ c ds, quoted cs = c :: ds ∧ isBlank c = false ∧ c ≠ ',' ∧ c ≠ ']' :=
  ⟨'"', _, rfl, by decide⟩

theorem text_reads (cs : List Char) : Reads string (quoted cs) cs where
  opened := quoted_opened cs
  read rest _ := string_quoted cs rest

theorem named_quoted {find : List Char → Option α} {a : α} (h : find cs = some a) :
    Reads (named find) (quoted cs) a where
  opened := quoted_opened cs
  read := by
    intro rest _
    simp only [named, string_quoted, h, bind, Except.bind]

theorem choice_quoted {find : List Char → Option α} {a : α} (h : find cs = some a) :
    Reads (choice find) (quoted cs) a where
  opened := quoted_opened cs
  read := by
    intro rest hrest
    have hread := (named_quoted h).read rest hrest
    rw [quoted_append] at hread ⊢
    rw [choice, skip_plain (by decide)]
    exact hread

theorem bool_ofBool (b : Bool) : Reads bool (ofBool b) b where
  opened := by cases b <;> exact ⟨_, _, rfl, by decide⟩
  read := by
    intro rest _
    cases b <;> rfl

theorem optional_null : Reads (optional value) null none where
  opened := ⟨_, _, rfl, by decide⟩
  read := by
    intro rest _
    rfl

theorem optional_quoted {a : α} (h : Reads value (quoted cs) a) :
    Reads (optional value) (quoted cs) (some a) where
  opened := quoted_opened cs
  read := by
    intro rest hrest
    have hread := h.read rest hrest
    rw [quoted_append] at hread ⊢
    rw [optional, skip_plain (by decide)]
    show (value _).map _ = _
    rw [hread]
    rfl

theorem Reads.map {β : Type} {text : Text} {a : α} (h : Reads value text a) (f : α → β) :
    Reads (fun cs => (value cs).map (fun (a, rest) => (f a, rest))) text (f a) where
  opened := h.opened
  read := by
    intro rest hrest
    simp only [h.read rest hrest]
    rfl

theorem whole_reads {text : Text} {a : α} (h : Reads value text a) : whole value text = .ok a := by
  have hread := h.read [] .done
  rw [List.append_nil] at hread
  rw [whole, hread]
  rfl

end
end Wiretap.Json
