import Mathlib.Data.List.TakeWhile
import Wiretap.ServerName
import Wiretap.Text.Blank

/-! How the name of a server is spelled. Whatever is read as one, a host or an address, is
made of letters, digits, dashes, underscores, dots and colons, so it is not empty, has no
blanks around it and is plain ASCII. -/

set_option autoImplicit false

namespace Wiretap

def IsSpelling (c : Char) : Prop := '-' ≤ c ∧ c ≤ 'z'

def Spells (cs rest : List Char) : Prop := ∃ front, cs = front ++ rest ∧ ∀ c ∈ front, IsSpelling c

theorem spelling_between {a b c : Char} (h : a ≤ c ∧ c ≤ b) (ha : '-' ≤ a) (hb : b ≤ 'z') :
    IsSpelling c := ⟨Char.le_trans ha h.1, Char.le_trans h.2 hb⟩

theorem spelling_plain {c : Char} (h : IsSpelling c) : c.toNat < 128 ∧ Text.isSpace c = false := by
  simp only [IsSpelling, Char.le_def, UInt32.le_iff_toNat_le] at h
  have hc : 45 ≤ c.toNat ∧ c.toNat ≤ 122 := h
  refine ⟨by omega, ?_⟩
  simp only [Text.isSpace, Bool.or_eq_false_iff, Bool.and_eq_false_iff, decide_eq_false_iff_not,
    beq_eq_false_iff_ne]
  omega

theorem spells_refl (cs : List Char) : Spells cs cs := ⟨[], rfl, by simp⟩

theorem spells_trans {cs rest more : List Char} (h : Spells cs rest) (hm : Spells rest more) :
    Spells cs more := by
  obtain ⟨front, rfl, hfront⟩ := h
  obtain ⟨middle, rfl, hmiddle⟩ := hm
  exact ⟨front ++ middle, by simp, List.forall_mem_append.mpr ⟨hfront, hmiddle⟩⟩

namespace IpAddress

section
variable {cs rest : List Char}

theorem digit_spelling {radix : Nat} {c : Char} (h : (digitOf radix c).isSome = true) :
    IsSpelling c := by
  obtain ⟨n, hn⟩ := Option.isSome_iff_exists.mp h
  obtain ⟨hdigit, -⟩ := Option.filter_eq_some_iff.mp hn
  unfold Text.Hex.digit? at hdigit
  simp only [Bool.and_eq_true, decide_eq_true_eq] at hdigit
  split at hdigit
  · rename_i hdecimal
    exact spelling_between hdecimal (by decide) (by decide)
  · split at hdigit
    · rename_i hlower
      exact spelling_between hlower (by decide) (by decide)
    · split at hdigit
      · rename_i hupper
        exact spelling_between hupper (by decide) (by decide)
      · cases hdigit

theorem number_spells {radix most bound n : Nat} {zeros : Bool}
    (h : number radix most bound zeros cs = some (n, rest)) : Spells cs rest := by
  simp only [number, Option.ite_none_left_eq_some, Option.some.injEq, Prod.mk.injEq] at h
  obtain ⟨-, -, -, rfl⟩ := h
  refine ⟨cs.takeWhile fun c => (digitOf radix c).isSome, ?_, fun c hc => ?_⟩
  · exact (List.prefix_iff_eq_append.mp (List.takeWhile_prefix _)).symm
  · have hdigit : (digitOf radix c).isSome = true :=
      List.mem_takeWhile_imp (p := fun c => (digitOf radix c).isSome) hc
    exact digit_spelling hdigit

theorem expect_spells {c : Char} (hc : IsSpelling c) (h : expect c cs = some rest) :
    Spells cs rest := by
  cases cs with
  | nil => cases h
  | cons d cs =>
    simp only [expect, Option.ite_none_right_eq_some] at h
    obtain ⟨rfl, h⟩ := h
    cases h
    exact ⟨[d], rfl, by simpa using hc⟩

theorem lead_spells {first : Bool} {c : Char} (hc : IsSpelling c)
    (h : (if first then some cs else expect c cs) = some rest) : Spells cs rest := by
  cases first with
  | true =>
    cases h
    exact spells_refl _
  | false => exact expect_spells hc h

theorem bytes_spell {count : Nat} {first : Bool} {bytes : List UInt8}
    (h : bytesFrom count first cs = some (bytes, rest)) : Spells cs rest := by
  induction count generalizing first bytes cs with
  | zero =>
    cases h
    exact spells_refl _
  | succ count ih =>
    have hparts : ((if first then some cs else expect '.' cs).bind fun here =>
        (number 10 3 256 false here).bind fun n =>
          (bytesFrom count false n.2).bind fun others =>
            some (UInt8.ofNat n.1 :: others.1, others.2)) = some (bytes, rest) := by
      cases first <;> exact h
    obtain ⟨here, hhere, h⟩ := Option.bind_eq_some_iff.mp hparts
    obtain ⟨⟨n, after⟩, hnumber, h⟩ := Option.bind_eq_some_iff.mp h
    obtain ⟨⟨others, last⟩, hothers, h⟩ := Option.bind_eq_some_iff.mp h
    cases h
    have hlead : Spells cs here := lead_spells ⟨by decide, by decide⟩ hhere
    exact spells_trans hlead (spells_trans (number_spells hnumber) (ih hothers))

theorem groups_spell (limit : Nat) (first : Bool) (cs : List Char) :
    Spells cs (groupsFrom limit first cs).2.2 := by
  induction limit generalizing first cs with
  | zero => exact spells_refl cs
  | succ limit ih =>
    unfold groupsFrom
    split
    · exact spells_refl cs
    · rename_i here hhere
      have hlead : Spells cs here := lead_spells ⟨by decide, by decide⟩ hhere
      split
      · rename_i bytes rest hdotted
        simp only [Option.ite_none_left_eq_some] at hdotted
        exact spells_trans hlead (bytes_spell hdotted.2)
      · split
        · exact spells_refl cs
        · rename_i n rest hnumber
          exact spells_trans hlead (spells_trans (number_spells hnumber) (ih false rest))

theorem colons_spell {groups : List UInt16} (h : colonGroups cs = some (groups, rest)) :
    Spells cs rest := by
  have hhead := groups_spell 8 true cs
  unfold colonGroups at h
  generalize groupsFrom 8 true cs = found at h hhead
  obtain ⟨head, dottedTail, after⟩ := found
  dsimp only at h hhead
  split at h
  · cases h
    exact hhead
  · split at h
    · cases h
    · obtain ⟨one, hone, h⟩ := Option.bind_eq_some_iff.mp h
      obtain ⟨two, htwo, h⟩ := Option.bind_eq_some_iff.mp h
      have htail := groups_spell (7 - head.length) true two
      cases h
      have hcolons : Spells after two := spells_trans
        (expect_spells ⟨by decide, by decide⟩ hone) (expect_spells ⟨by decide, by decide⟩ htwo)
      exact spells_trans hhead (spells_trans hcolons htail)

theorem read_spells {ip : IpAddress} (h : read? cs = some ip) : Spells cs [] := by
  rcases Option.or_eq_some_iff.mp h with h | ⟨-, h⟩
  · unfold readV4? at h
    split at h
    · exact bytes_spell ‹_›
    · cases h
  · unfold readV6? at h
    split at h
    · exact colons_spell ‹_›
    · cases h

end
end IpAddress

namespace ServerName

theorem label_spelling {c : Char} (h : isLabelChar c = true) : IsSpelling c := by
  simp only [isLabelChar, isDigit, Bool.or_eq_true, Bool.and_eq_true, decide_eq_true_eq] at h
  rcases h with (((h | h) | h) | rfl) | rfl
  · exact spelling_between h (by decide) (by decide)
  · exact spelling_between h (by decide) (by decide)
  · exact spelling_between h (by decide) (by decide)
  · exact ⟨by decide, by decide⟩
  · exact ⟨by decide, by decide⟩

/-- Every character of a name is a dot or in one of its labels. -/
theorem labels_spelling {seen cs : List Char}
    (h : ∀ l ∈ labels seen cs, ∀ c ∈ l, IsSpelling c) : ∀ c ∈ seen.reverse ++ cs, IsSpelling c := by
  induction cs generalizing seen with
  | nil => simpa [labels] using h
  | cons d cs ih =>
    unfold labels at h
    split at h
    · subst d
      obtain ⟨hseen, hrest⟩ := List.forall_mem_cons.mp h
      have hdot : IsSpelling '.' := ⟨by decide, by decide⟩
      exact List.forall_mem_append.mpr ⟨hseen, List.forall_mem_cons.mpr ⟨hdot, ih hrest⟩⟩
    · simpa using ih h

theorem mem_nameLabels {cs l : List Char} (h : l ∈ labels [] cs) (hl : l ≠ []) :
    l ∈ nameLabels cs := by
  unfold nameLabels
  rw [← List.mem_reverse] at h
  split
  · rename_i rest hreverse
    rw [hreverse] at h
    exact List.mem_reverse.mpr ((List.mem_cons.mp h).resolve_left hl)
  · exact List.mem_reverse.mpr h

theorem host_spelling {cs : List Char} (h : isHost cs = true) : ∀ c ∈ cs, IsSpelling c := by
  simp only [isHost, Bool.and_eq_true] at h
  obtain ⟨⟨-, hlabels⟩, -⟩ := h
  show ∀ c ∈ ([] : List Char).reverse ++ cs, IsSpelling c
  refine labels_spelling fun l hl c hc => ?_
  have hin := mem_nameLabels hl (List.ne_nil_of_mem hc)
  have hlabel := List.all_eq_true.mp hlabels l hin
  simp only [isLabel, Bool.and_eq_true] at hlabel
  obtain ⟨⟨⟨-, hall⟩, -⟩, -⟩ := hlabel
  exact label_spelling (List.all_eq_true.mp hall c hc)

/-- What is read as the name of a server is not empty, and spelled like one. -/
theorem read_spelling {name : String} {target : ServerName} (h : read? name = some target) :
    name.toList ≠ [] ∧ ∀ c ∈ name.toList, IsSpelling c := by
  unfold read? at h
  generalize name.toList = cs at h
  constructor
  · rintro rfl
    cases h
  · split at h
    · exact host_spelling ‹_›
    · obtain ⟨ip, hip, -⟩ := Option.map_eq_some_iff.mp h
      obtain ⟨front, rfl, hfront⟩ := IpAddress.read_spells hip
      simpa using hfront

/-- There is nothing to trim from it. -/
theorem read_trim {name : String} {target : ServerName} (h : read? name = some target) :
    Text.trim name = name := by
  obtain ⟨-, hspelling⟩ := read_spelling h
  have hkept : ∀ cs : List Char, (∀ c ∈ cs, IsSpelling c) → cs.dropWhile Text.isSpace = cs := by
    intro cs hcs
    refine List.dropWhile_eq_self_iff.mpr fun hl => ?_
    rw [(spelling_plain (hcs _ (List.getElem_mem hl))).2]
    decide
  have hback : ∀ c ∈ name.toList.reverse, IsSpelling c := fun c hc =>
    hspelling c (List.mem_reverse.mp hc)
  rw [Text.trim, Text.trimChars, hkept _ hspelling, hkept _ hback, List.reverse_reverse,
    String.ofList_toList]

end ServerName
end Wiretap
