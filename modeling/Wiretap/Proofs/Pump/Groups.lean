import Mathlib.Data.List.Chain
import Wiretap.Config
import Wiretap.Packet

/-! The grouping of forwarded chunks that captured packets are compared with.
It knows the settings, and of each chunk its bytes, from when it could be read
and when it had been passed on. It knows neither deadlines nor phases. -/

set_option autoImplicit false

namespace Wiretap.Pump

structure Passed where
  ready : Nat
  done : Nat
  bytes : Bytes
  deriving DecidableEq, Repr

def groupSize : List Passed → Nat
  | [] => 0
  | c :: group => c.bytes.length + groupSize group

/-- Whether a chunk that can be read from `ready` on starts a group of its own: the group
before it is full, or the wait since its newest chunk was too long. -/
def parts (d : DrainSettings) (ready : Nat) (group : List Passed) : Bool :=
  d.maxPacket ≤ groupSize group || group.head?.all (fun last => d.quiescence < ready - last.done)

def place (d : DrainSettings) : List (List Passed) → Passed → List (List Passed)
  | [], c => [[c]]
  | group :: groups, c =>
    if parts d c.ready group then [c] :: group :: groups else (c :: group) :: groups

def groups (d : DrainSettings) (cs : List Passed) : List (List Passed) := cs.foldl (place d) []

def starts (d : DrainSettings) (cs : List Passed) (ready : Nat) : Bool :=
  (groups d cs).head?.all (parts d ready)

def groupBytes (group : List Passed) : Bytes := group.reverse.flatMap (·.bytes)

def packets (d : DrainSettings) (cs : List Passed) : List Bytes :=
  (groups d cs).reverse.map groupBytes

section
variable (d : DrainSettings)

@[simp] theorem groups_concat (cs : List Passed) (c : Passed) :
    groups d (cs ++ [c]) = place d (groups d cs) c := List.foldl_concat _ _ _ _

theorem groupSize_append (xs ys : List Passed) :
    groupSize (xs ++ ys) = groupSize xs + groupSize ys := by
  induction xs with
  | nil => simp [groupSize]
  | cons c xs ih => simp [groupSize, ih, Nat.add_assoc]

theorem groupSize_reverse (group : List Passed) : groupSize group.reverse = groupSize group := by
  induction group with
  | nil => rfl
  | cons c group ih => simp [groupSize, groupSize_append, ih, Nat.add_comm]

theorem groupSize_flatten (group : List Passed) :
    (group.map (·.bytes)).flatten.length = groupSize group := by
  induction group with
  | nil => rfl
  | cons c group ih => rw [List.map_cons, List.flatten_cons, List.length_append, ih, groupSize]

theorem groupSize_bytes (group : List Passed) : (groupBytes group).length = groupSize group := by
  rw [← groupSize_reverse, ← groupSize_flatten]
  rfl

theorem place_ne_nil (gs : List (List Passed)) (c : Passed) : place d gs c ≠ [] := by
  cases gs with
  | nil => simp [place]
  | cons g gs =>
    simp only [place]
    split <;> simp

theorem place_append (g : List Passed) (gs : List (List Passed)) (c : Passed) :
    place d (g :: gs) c = place d [g] c ++ gs := by
  simp only [place]
  split <;> rfl

theorem foldl_place_append (cs : List Passed) (front gs : List (List Passed)) (hf : front ≠ []) :
    cs.foldl (place d) (front ++ gs) = cs.foldl (place d) front ++ gs := by
  induction cs generalizing front with
  | nil => rfl
  | cons c cs ih =>
    obtain ⟨g, rest, rfl⟩ := List.exists_cons_of_ne_nil hf
    have hc : place d (g :: rest ++ gs) c = place d (g :: rest) c ++ gs := by
      rw [List.cons_append, place_append, place_append d g rest, List.append_assoc]
    simp only [List.foldl_cons]
    rw [hc]
    exact ih _ (place_ne_nil d _ c)

theorem groups_newest (cs : List Passed) (c : Passed) :
    ∃ g gs, groups d (cs ++ [c]) = (c :: g) :: gs := by
  rw [groups_concat]
  cases groups d cs with
  | nil => exact ⟨[], [], rfl⟩
  | cons g gs =>
    simp only [place]
    split
    · exact ⟨[], g :: gs, rfl⟩
    · exact ⟨g, gs, rfl⟩

theorem groups_start {cs : List Passed} {c : Passed} (h : starts d cs c.ready = true) :
    groups d (cs ++ [c]) = [c] :: groups d cs := by
  rw [groups_concat]
  unfold starts at h
  cases hg : groups d cs with
  | nil => rfl
  | cons g gs =>
    rw [hg] at h
    rw [place, if_pos (by simpa using h)]

theorem groups_join {cs : List Passed} {c : Passed} (h : starts d cs c.ready = false) :
    ∃ g gs, groups d cs = g :: gs ∧ groups d (cs ++ [c]) = (c :: g) :: gs := by
  rw [groups_concat]
  unfold starts at h
  cases hg : groups d cs with
  | nil => simp [hg] at h
  | cons g gs =>
    rw [hg] at h
    exact ⟨g, gs, rfl, by rw [place, if_neg (by simpa using h)]⟩

/-- Chunks are grouped by themselves when the first of them starts a group. -/
theorem groups_append (before after : List Passed)
    (h : ∀ c ∈ after.head?, starts d before c.ready = true) :
    groups d (before ++ after) = groups d after ++ groups d before := by
  cases after with
  | nil => simp [groups]
  | cons c cs =>
    have hc := groups_start d (h c (by simp))
    calc groups d (before ++ c :: cs)
        = cs.foldl (place d) (groups d (before ++ [c])) := by
          rw [groups, groups, ← List.foldl_append, List.append_assoc]
          rfl
      _ = cs.foldl (place d) ([[c]] ++ groups d before) := by rw [hc]; rfl
      _ = groups d (c :: cs) ++ groups d before :=
          foldl_place_append d cs _ _ (by simp)

theorem packets_append (before after : List Passed)
    (h : ∀ c ∈ after.head?, starts d before c.ready = true) :
    packets d (before ++ after) = packets d before ++ packets d after := by
  simp [packets, groups_append d before after h]

/-- Chunks with no long wait between them are one group, as long as all but the last stay
below the limit. -/
theorem groups_chain (burst : List Passed) (hn : burst ≠ [])
    (hchain : burst.IsChain (fun a b => b.ready - a.done ≤ d.quiescence))
    (hsize : groupSize burst.dropLast < d.maxPacket ∨ burst.dropLast = []) :
    groups d burst = [burst.reverse] := by
  induction burst using List.reverseRecOn with
  | nil => exact absurd rfl hn
  | append_singleton front c ih =>
    rw [List.dropLast_concat] at hsize
    rcases List.eq_nil_or_concat front with rfl | ⟨first, a, rfl⟩
    · rfl
    · rw [List.concat_eq_append] at ih hchain hsize ⊢
      obtain ⟨hfront, -, hgap⟩ := List.isChain_append.mp hchain
      have hlt : groupSize (first ++ [a]) < d.maxPacket := hsize.resolve_right (by simp)
      have hless : groupSize first < d.maxPacket := by
        rw [groupSize_append] at hlt
        omega
      have hgroup := ih (by simp) hfront (.inl (by simpa using hless))
      have hparts : parts d c.ready (first ++ [a]).reverse = false := by
        have hwait := hgap a (by simp) c (by simp)
        simp only [parts, groupSize_reverse, Bool.or_eq_false_iff, decide_eq_false_iff_not]
        exact ⟨by omega, by simpa using hwait⟩
      rw [groups_concat, hgroup, place, hparts]
      simp

/-- A group can only be full with its newest chunk. -/
theorem groups_fit {limit : Nat} (cs : List Passed) (hc : ∀ c ∈ cs, c.bytes.length ≤ limit) :
    ∀ g ∈ groups d cs, groupSize g ≤ max d.maxPacket 1 - 1 + limit := by
  have hfit : ∀ g ∈ groups d cs, ∃ c rest, g = c :: rest ∧ c.bytes.length ≤ limit ∧
      groupSize rest ≤ max d.maxPacket 1 - 1 := by
    induction cs using List.reverseRecOn with
    | nil =>
      intro g hg
      cases hg
    | append_singleton front c ih =>
      have hfront := ih fun a ha => hc a (by simp [ha])
      have hlast := hc c (by simp)
      rw [groups_concat]
      cases hgs : groups d front with
      | nil =>
        intro g hg
        rw [place, List.mem_singleton] at hg
        exact ⟨c, [], hg, hlast, Nat.zero_le _⟩
      | cons h hs =>
        rw [hgs] at hfront
        intro g hg
        rw [place] at hg
        split at hg
        · rcases List.mem_cons.mp hg with rfl | hg
          · exact ⟨c, [], rfl, hlast, Nat.zero_le _⟩
          · exact hfront g hg
        · rename_i hparts
          rcases List.mem_cons.mp hg with rfl | hg
          · simp only [parts, Bool.or_eq_true, decide_eq_true_eq, not_or, Nat.not_le] at hparts
            exact ⟨c, h, rfl, hlast, by omega⟩
          · exact hfront g (List.mem_cons_of_mem _ hg)
  intro g hg
  obtain ⟨c, rest, rfl, hlast, hrest⟩ := hfit g hg
  rw [groupSize]
  omega

end

end Wiretap.Pump
