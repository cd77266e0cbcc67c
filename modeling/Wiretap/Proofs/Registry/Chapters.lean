import Wiretap.Registry.Feed

/-! The events about one connection make a story in chapters. It is registered
once, then packets are added to it, and then it is closed; after the registry
was cleared nothing more is told of it. -/

set_option autoImplicit false

namespace Wiretap

def RegistryEvent.concerns (id : ConnectionId) : RegistryEvent → Bool
  | .registered other => other = id
  | .packetAdded other _ => other = id
  | .closed other => other = id
  | .cleared => false

inductive Chapter where
  | unheard
  | live
  | shut
  | past
  deriving DecidableEq, Repr

namespace Chapter

def next (id : ConnectionId) (ch : Chapter) : RegistryEvent → Option Chapter
  | .cleared => some (if ch = .unheard then .unheard else .past)
  | .registered other =>
    if other = id then (if ch = .unheard then some .live else none) else some ch
  | .packetAdded other _ =>
    if other = id then (if ch = .live then some .live else none) else some ch
  | .closed other => if other = id then (if ch = .live then some .shut else none) else some ch

def activity : Chapter → Option Bool
  | .unheard => none
  | .live => some true
  | .shut => some false
  | .past => none

inductive Turn (id : ConnectionId) : Chapter → RegistryEvent → Chapter → Prop where
  | other {ch : Chapter} {e : RegistryEvent} (h : e.concerns id = false) (hc : e ≠ .cleared) :
    Turn id ch e ch
  | cleared {ch : Chapter} : Turn id ch .cleared (if ch = .unheard then .unheard else .past)
  | registered : Turn id .unheard (.registered id) .live
  | packet (p : Packet) : Turn id .live (.packetAdded id p) .live
  | closed : Turn id .live (.closed id) .shut

theorem next_other {id : ConnectionId} {e : RegistryEvent} (ch : Chapter)
    (h : e.concerns id = false) (hc : e ≠ .cleared) : next id ch e = some ch := by
  cases e with
  | cleared => exact absurd rfl hc
  | registered other => exact if_neg (by simpa [RegistryEvent.concerns] using h)
  | packetAdded other p => exact if_neg (by simpa [RegistryEvent.concerns] using h)
  | closed other => exact if_neg (by simpa [RegistryEvent.concerns] using h)

theorem turn_of_next {id : ConnectionId} {ch after : Chapter} {e : RegistryEvent}
    (h : next id ch e = some after) : Turn id ch e after := by
  by_cases hc : e.concerns id = true
  · -- The event is about this connection, and its chapter can be read off the guard.
    cases e with
    | cleared => cases hc
    | registered other =>
      obtain rfl : other = id := of_decide_eq_true hc
      simp only [next, if_true, Option.ite_none_right_eq_some, Option.some.injEq] at h
      obtain ⟨rfl, rfl⟩ := h
      exact .registered
    | packetAdded other p =>
      obtain rfl : other = id := of_decide_eq_true hc
      simp only [next, if_true, Option.ite_none_right_eq_some, Option.some.injEq] at h
      obtain ⟨rfl, rfl⟩ := h
      exact .packet p
    | closed other =>
      obtain rfl : other = id := of_decide_eq_true hc
      simp only [next, if_true, Option.ite_none_right_eq_some, Option.some.injEq] at h
      obtain ⟨rfl, rfl⟩ := h
      exact .closed
  · have hother : e.concerns id = false := by simpa using hc
    by_cases he : e = .cleared
    · subst he
      cases h
      exact .cleared
    · rw [next_other ch hother he] at h
      cases h
      exact .other hother he

end Chapter

def chapter (id : ConnectionId) : List RegistryEvent → Option Chapter
  | [] => some .unheard
  | e :: older => (chapter id older).bind (Chapter.next id · e)

def told (id : ConnectionId) (published : List RegistryEvent) : List RegistryEvent :=
  published.reverse.filter (·.concerns id)

def Tale (id : ConnectionId) (events : List RegistryEvent) : Chapter → Prop
  | .unheard => events = []
  | .live => ∃ packets : List Packet, events = .registered id :: packets.map (.packetAdded id)
  | .shut => ∃ packets : List Packet,
      events = .registered id :: packets.map (.packetAdded id) ++ [.closed id]
  | .past => ∃ packets : List Packet,
      events <+: .registered id :: packets.map (.packetAdded id) ++ [.closed id]

section
variable {id : ConnectionId} {published older newer : List RegistryEvent} {ch : Chapter}
  {e : RegistryEvent}

theorem chapter_cons (h : chapter id (e :: older) = some ch) :
    ∃ before, chapter id older = some before ∧ Chapter.Turn id before e ch := by
  obtain ⟨before, hb, hn⟩ := Option.bind_eq_some_iff.mp h
  exact ⟨before, hb, Chapter.turn_of_next hn⟩

theorem told_cons (e : RegistryEvent) (older : List RegistryEvent) :
    told id (e :: older) = told id older ++ if e.concerns id then [e] else [] := by
  simp only [told, List.reverse_cons, List.filter_append, List.filter_cons, List.filter_nil]

theorem tale_grammar {events : List RegistryEvent} (h : Tale id events ch) :
    ∃ packets : List Packet,
      events <+: .registered id :: packets.map (.packetAdded id) ++ [.closed id] := by
  cases ch with
  | unheard => exact ⟨[], by rw [h]; exact List.nil_prefix⟩
  | live =>
    obtain ⟨packets, rfl⟩ := h
    exact ⟨packets, List.prefix_append _ _⟩
  | shut =>
    obtain ⟨packets, rfl⟩ := h
    exact ⟨packets, List.prefix_rfl⟩
  | past => exact h

/-- Every chapter tells what it should have told. -/
theorem chapter_tale (h : chapter id published = some ch) : Tale id (told id published) ch := by
  induction published generalizing ch with
  | nil =>
    cases h
    rfl
  | cons e older ih =>
    obtain ⟨before, hb, turn⟩ := chapter_cons h
    have htale := ih hb
    rw [told_cons]
    cases turn with
    | other hother _ =>
      rw [hother]
      simpa using htale
    | cleared =>
      simp only [RegistryEvent.concerns, Bool.false_eq_true, if_false, List.append_nil]
      split
      · rename_i hu
        exact hu ▸ htale
      · exact tale_grammar htale
    | registered =>
      have hempty : told id older = [] := htale
      exact ⟨[], by simp [hempty, RegistryEvent.concerns]⟩
    | packet p =>
      obtain ⟨packets, hpackets⟩ := htale
      exact ⟨packets ++ [p], by simp [hpackets, RegistryEvent.concerns]⟩
    | closed =>
      obtain ⟨packets, hpackets⟩ := htale
      exact ⟨packets, by simp [hpackets, RegistryEvent.concerns]⟩

/-- A connection has been heard of once it was registered. -/
theorem chapter_registered (h : chapter id published = some ch) :
    .registered id ∈ published ↔ ch ≠ .unheard := by
  induction published generalizing ch with
  | nil =>
    cases h
    simp
  | cons e older ih =>
    obtain ⟨before, hb, turn⟩ := chapter_cons h
    have hrest := ih hb
    rw [List.mem_cons]
    cases turn with
    | other hother _ =>
      have hne : ¬.registered id = e := by
        rintro rfl
        simp [RegistryEvent.concerns] at hother
      simp only [hne, false_or, hrest]
    | cleared =>
      by_cases hu : before = .unheard <;> simp [hu, hrest]
    | registered => simp
    | packet p => simp [hrest]
    | closed => simp [hrest]

theorem chapter_shut (h : chapter id published = some .shut) : .closed id ∈ published := by
  obtain ⟨packets, htold⟩ := chapter_tale h
  have hmem : .closed id ∈ told id published := by simp [htold]
  exact List.mem_reverse.mp (List.mem_filter.mp hmem).1

theorem chapter_live (h : chapter id published = some .live) : .closed id ∉ published := by
  intro hmem
  obtain ⟨packets, htold⟩ := chapter_tale h
  have hin : .closed id ∈ told id published :=
    List.mem_filter.mpr ⟨List.mem_reverse.mpr hmem, by simp [RegistryEvent.concerns]⟩
  simp [htold] at hin

theorem chapter_append (h : chapter id (newer ++ older) = some ch) :
    ∃ before, chapter id older = some before := by
  induction newer generalizing ch with
  | nil => exact ⟨ch, h⟩
  | cons e newer ih =>
    obtain ⟨before, hb, -⟩ := chapter_cons h
    exact ih hb

/-- Nothing more is told of a connection that is past. -/
theorem chapter_past (hp : chapter id older = some .past)
    (h : chapter id (newer ++ older) = some ch) :
    ch = .past ∧ ∀ e ∈ newer, e.concerns id = false := by
  induction newer generalizing ch with
  | nil =>
    rw [List.nil_append, hp] at h
    exact ⟨(Option.some.inj h).symm, fun e he => by cases he⟩
  | cons e newer ih =>
    obtain ⟨before, hb, turn⟩ := chapter_cons h
    obtain ⟨rfl, hrest⟩ := ih hb
    cases turn with
    | other hother _ => exact ⟨rfl, List.forall_mem_cons.mpr ⟨hother, hrest⟩⟩
    | cleared => exact ⟨rfl, List.forall_mem_cons.mpr ⟨rfl, hrest⟩⟩

theorem chapter_cleared (h : chapter id (newer ++ .cleared :: older) = some ch)
    (hr : .registered id ∈ older) : ∀ e ∈ newer, e.concerns id = false := by
  obtain ⟨after, ha⟩ := chapter_append h
  obtain ⟨before, hb, turn⟩ := chapter_cons ha
  have hheard : before ≠ .unheard := (chapter_registered hb).mp hr
  have hpast : chapter id (.cleared :: older) = some .past := by
    rw [chapter, hb, Option.bind_some, Chapter.next, if_neg hheard]
  exact (chapter_past hpast h).2

/-- As long as the registry is not cleared, it holds what was registered. -/
theorem chapter_held (h : chapter id (newer ++ .registered id :: older) = some ch)
    (hc : .cleared ∉ newer) : ch = .live ∨ ch = .shut := by
  induction newer generalizing ch with
  | nil =>
    obtain ⟨before, -, turn⟩ := chapter_cons h
    cases turn with
    | other hother _ => simp [RegistryEvent.concerns] at hother
    | registered => exact .inl rfl
  | cons e newer ih =>
    obtain ⟨before, hb, turn⟩ := chapter_cons h
    have hrest := ih hb fun hm => hc (List.mem_cons_of_mem _ hm)
    cases turn with
    | other => exact hrest
    | cleared => exact absurd List.mem_cons_self hc
    | registered => rcases hrest with hr | hr <;> cases hr
    | packet p => exact hrest
    | closed => exact .inr rfl

end

end Wiretap
