import Wiretap.Json.Record
import Wiretap.Proofs.Json.Values

/-! Arrays and records are read element by element. Each element ends where the comma or the bracket
behind it says, so a list is read back when each of its elements is, and a record when its members
are those of its fields, each once. -/

set_option autoImplicit false

namespace Wiretap.Json

inductive Fills {ρ : Type} (fields : List (RecordField ρ)) : ρ → List (String × Text) → ρ → Prop
  | nil (draft : ρ) : Fills fields draft [] draft
  | cons {draft next last : ρ} {name : String} {text : Text} {ms : List (String × Text)}
      {f : RecordField ρ} (found : fields.find? (fun f => f.name == name.toList) = some f)
      (unset : f.isSet draft = false) (reads : Reads (f.read draft) text next)
      (more : Fills fields next ms last) : Fills fields draft ((name, text) :: ms) last

section
variable {α ρ : Type} {value : Reader α} {rest : Text}
  {fields : List (RecordField ρ)} {draft next last : ρ} {name : String} {text : Text}

theorem commaed_cons (t : Text) (ts : List Text) :
    commaed (t :: ts) = t ++ ts.flatMap (',' :: ·) := by
  induction ts generalizing t with
  | nil => rw [List.flatMap_nil, List.append_nil, commaed]
  | cons u ts ih => rw [commaed, ih, List.flatMap_cons, List.cons_append]

theorem commaed_fuel (ts : List Text) (c : Char) (rest : Text) :
    ts.length < (commaed ts ++ c :: rest).length + 1 := by
  cases ts with
  | nil => exact Nat.zero_lt_succ _
  | cons t ts =>
    have hcommas := length_le_pieces (f := (',' :: ·)) (fun _ => Nat.zero_lt_succ _) ts
    simp only [commaed_cons, List.length_append, List.length_cons]
    omega

theorem nextElement_first {text : Text} {a : α} (h : Reads value text a) (rest : Text) :
    nextElement true (text ++ rest) = .ok (some (text ++ rest)) := by
  obtain ⟨c, cs, rfl, hblank, hcomma, hbracket⟩ := h.opened
  rw [List.cons_append, nextElement, skip_plain hblank]
  split
  · next h => exact absurd (List.cons.inj h).1 hbracket
  · next h => exact absurd (List.cons.inj h).1 hcomma
  · next h => exact absurd h (List.cons_ne_nil _ _)
  · rfl

theorem nextElement_comma {text : Text} {a : α} (h : Reads value text a) (rest : Text) :
    nextElement false (',' :: (text ++ rest)) = .ok (some (text ++ rest)) := by
  obtain ⟨c, cs, rfl, hblank, -, hbracket⟩ := h.opened
  rw [List.cons_append, nextElement, skip_plain (by decide)]
  simp only [skip_plain hblank]
  rw [if_neg (by decide)]
  split
  · next h => exact absurd (List.cons.inj h).1 hbracket
  · next h => exact absurd h (List.cons_ne_nil _ _)
  · rfl

theorem closed_more (ts : List Text) (h : Closed rest) :
    Closed (ts.flatMap (',' :: ·) ++ rest) := by
  cases ts with
  | nil => exact h
  | cons t ts => exact .comma _

/-- Behind the first element of an array each one has a comma in front. -/
theorem elements_more {write : α → Text} {as : List α} (has : ∀ a ∈ as, Reads value (write a) a)
    (fuel : Nat) (seen : List α) (rest : Text) (h : as.length < fuel) :
    elements value fuel false seen ((as.map write).flatMap (',' :: ·) ++ ']' :: rest) =
      .ok (seen.reverse ++ as, rest) := by
  induction as generalizing fuel seen with
  | nil =>
    obtain ⟨fuel, rfl⟩ := Nat.exists_eq_add_one.mpr (Nat.zero_lt_of_lt h)
    rw [List.append_nil]
    rfl
  | cons a as ih =>
    obtain ⟨fuel, rfl⟩ := Nat.exists_eq_add_one.mpr (Nat.zero_lt_of_lt h)
    have ha := has a (List.mem_cons_self ..)
    have hmore := ih (fun b hb => has b (List.mem_cons_of_mem _ hb)) fuel (a :: seen)
      (Nat.lt_of_succ_lt_succ h)
    rw [List.map_cons, List.flatMap_cons, List.cons_append, List.cons_append, List.append_assoc,
      elements, nextElement_comma ha]
    show (value _ >>= fun r => elements value fuel false (r.1 :: seen) r.2) = _
    rw [ha.read _ (closed_more _ (.bracket _))]
    show elements value fuel false (a :: seen) _ = _
    rw [hmore, List.reverse_cons, List.append_assoc, List.singleton_append]

/-- The first element of an array has no comma in front. -/
theorem elements_all {write : α → Text} {as : List α} (has : ∀ a ∈ as, Reads value (write a) a)
    (fuel : Nat) (rest : Text) (h : as.length < fuel) :
    elements value fuel true [] (commaed (as.map write) ++ ']' :: rest) = .ok (as, rest) := by
  obtain ⟨fuel, rfl⟩ := Nat.exists_eq_add_one.mpr (Nat.zero_lt_of_lt h)
  cases as with
  | nil => rfl
  | cons a as =>
    have ha := has a (List.mem_cons_self ..)
    rw [List.map_cons, commaed_cons, List.append_assoc, elements, nextElement_first ha]
    show (value _ >>= fun r => elements value fuel false [r.1] r.2) = _
    rw [ha.read _ (closed_more _ (.bracket _))]
    exact elements_more (fun b hb => has b (List.mem_cons_of_mem _ hb)) fuel [a] rest
      (Nat.lt_of_succ_lt_succ h)

theorem array_list {write : α → Text} {as : List α} (has : ∀ a ∈ as, Reads value (write a) a) :
    Reads (array value) (list (as.map write)) as where
  opened := ⟨'[', _, rfl, by decide⟩
  read := by
    intro rest _
    have hfuel := commaed_fuel (as.map write) ']' rest
    rw [List.length_map] at hfuel
    rw [list, List.append_assoc, List.cons_append, List.singleton_append, array,
      skip_plain (by decide)]
    exact elements_all has _ rest hfuel

theorem nextKey_first (key : List Char) (rest : Text) :
    nextKey true (quoted key ++ rest) = .ok (some (key, rest)) := by
  have hkey := stringTail_escapes key rest
  rw [quoted_append, nextKey, skip_plain (by decide)]
  show (stringTail _).map some = _
  rw [hkey]
  rfl

theorem nextKey_comma (key : List Char) (rest : Text) :
    nextKey false (',' :: (quoted key ++ rest)) = .ok (some (key, rest)) := by
  have hkey := stringTail_escapes key rest
  rw [quoted_append, nextKey, skip_plain (by decide)]
  show (stringTail _).map some = _
  rw [hkey]
  rfl

theorem members_step {f : RecordField ρ} {first : Bool} {cs rest : Text} (fuel : Nat)
    (hkey : nextKey first cs = .ok (some (name.toList, ':' :: (text ++ rest))))
    (found : fields.find? (fun f => f.name == name.toList) = some f)
    (unset : f.isSet draft = false) (reads : Reads (f.read draft) text next) (hrest : Closed rest) :
    members fields (fuel + 1) first draft cs = members fields fuel false next rest := by
  have hcolon : colon (':' :: (text ++ rest)) = .ok (text ++ rest) := rfl
  simp only [members, hkey, found, unset, hcolon, reads.read rest hrest, bind, Except.bind]
  rfl

theorem members_more {ms : List (String × Text)} (h : Fills fields draft ms last) (fuel : Nat)
    (rest : Text) (hfuel : ms.length < fuel) :
    members fields fuel false draft
      ((ms.map fun m => member m.1 m.2).flatMap (',' :: ·) ++ '\x7d' :: rest) =
      .ok (last, '\x7d' :: rest) := by
  induction h generalizing fuel with
  | nil draft =>
    obtain ⟨fuel, rfl⟩ := Nat.exists_eq_add_one.mpr (Nat.zero_lt_of_lt hfuel)
    rfl
  | @cons draft next last name text ms f found unset reads more ih =>
    obtain ⟨fuel, rfl⟩ := Nat.exists_eq_add_one.mpr (Nat.zero_lt_of_lt hfuel)
    rw [List.map_cons, List.flatMap_cons, List.append_assoc,
      members_step fuel _ found unset reads (closed_more _ (.brace _))]
    · exact ih fuel (Nat.lt_of_succ_lt_succ hfuel)
    · rw [member, List.cons_append, List.append_assoc, List.cons_append]
      exact nextKey_comma _ _

/-- The first member of an object has no comma in front. -/
theorem members_all {ms : List (String × Text)} (h : Fills fields draft ms last) (fuel : Nat)
    (rest : Text) (hfuel : ms.length < fuel) :
    members fields fuel true draft (commaed (ms.map fun m => member m.1 m.2) ++ '\x7d' :: rest) =
      .ok (last, '\x7d' :: rest) := by
  obtain ⟨fuel, rfl⟩ := Nat.exists_eq_add_one.mpr (Nat.zero_lt_of_lt hfuel)
  cases h with
  | nil => rfl
  | @cons _ next _ name text ms f found unset reads more =>
    rw [List.map_cons, commaed_cons, List.append_assoc,
      members_step fuel _ found unset reads (closed_more _ (.brace _))]
    · exact members_more more fuel rest (Nat.lt_of_succ_lt_succ hfuel)
    · rw [member, List.append_assoc, List.cons_append]
      exact nextKey_first _ _

theorem field_reads {β : Type} {got : ρ → Option β} {put : ρ → α → ρ} {a : α}
    (h : Reads value text a) : Reads ((field name got value put).read draft) text (put draft a) :=
  h.map _

/-- A record is read from an object whose members fill its draft. -/
theorem record_object {finish : ρ → Option α} {ms : List (String × Text)} {a : α}
    (h : Fills fields draft ms last) (hfinish : finish last = some a) :
    Reads (record fields draft finish) (object ms) a where
  opened := ⟨'\x7b', _, rfl, by decide⟩
  read := by
    intro rest _
    have hfuel := commaed_fuel (ms.map fun m => member m.1 m.2) '\x7d' rest
    rw [List.length_map] at hfuel
    rw [object, List.append_assoc, List.cons_append, List.singleton_append, record,
      skip_plain (by decide)]
    simp only [members_all h _ rest hfuel, hfinish, bind, Except.bind]
    rfl

end
end Wiretap.Json
