import Mathlib.Data.List.Basic

/-!
# Timetables

What becomes of jobs on so many slots when each job takes the slot that is free
first, in the order in which the jobs arrive. A job that never ends keeps its slot.
A job has begun at a moment if and only if fewer jobs than there are slots came
before it and are not over.
-/

set_option autoImplicit false

namespace Wiretap.Pool

structure Job where
  arrival : Nat
  length : Option Nat
  deriving DecidableEq, Repr

structure Span where
  begun : Option Nat
  ended : Option Nat
  deriving DecidableEq, Repr

namespace Span

def hasBegun (s : Span) (t : Nat) : Bool := s.begun.any (· ≤ t)

def isOver (s : Span) (t : Nat) : Bool := s.ended.any (· ≤ t)

end Span

def serve (limit : Nat) (free : List Nat) (job : Job) : Span × List Nat :=
  if limit = 0 then (⟨some job.arrival, job.length.map (job.arrival + ·)⟩, free)
  else
    match free.min? with
    | none => (⟨none, none⟩, free)
    | some slot =>
      let begun := max slot job.arrival
      let ended := job.length.map (begun + ·)
      (⟨some begun, ended⟩, ended.toList ++ free.erase slot)

def timetableFrom (limit : Nat) : List Nat → List Job → List Span
  | _, [] => []
  | free, job :: jobs =>
    (serve limit free job).1 :: timetableFrom limit (serve limit free job).2 jobs

def timetable (limit : Nat) (jobs : List Job) : List Span :=
  timetableFrom limit (List.replicate limit 0) jobs

def unfinished (spans : List Span) (t : Nat) : Nat := spans.countP (fun s => !s.isOver t)

def vacant (free : List Nat) (t : Nat) : Nat := free.countP (· ≤ t)

def Balanced (limit : Nat) (free : List Nat) (before : List Span) : Prop :=
  ∀ t, limit ≤ vacant free t + unfinished before t ∧
    (0 < vacant free t → vacant free t + unfinished before t = limit)

structure Serves (limit : Nat) (before : List Span) (job : Job) (span : Span) : Prop where
  arrival : ∀ t, span.hasBegun t = true → job.arrival ≤ t
  ended : span.ended = span.begun.bind fun s => job.length.map (s + ·)
  begun : ∀ t, job.arrival ≤ t →
    (span.hasBegun t = true ↔ limit = 0 ∨ unfinished before t < limit)

def relevant (close : Option Nat) (spans : List Span) : List Span :=
  spans.filter fun span => close.all span.hasBegun

def AllOver (spans : List Span) (t : Nat) : Prop := ∀ span ∈ spans, span.isOver t = true

def lastEnd (start : Nat) (spans : List Span) : Nat :=
  spans.foldr (fun span last => span.ended.elim last (max last)) start

section
variable {limit : Nat} {free : List Nat} {before : List Span} {job : Job} {jobs : List Job}

theorem vacant_pos {t : Nat} : 0 < vacant free t ↔ ∃ slot, free.min? = some slot ∧ slot ≤ t := by
  rw [vacant, List.countP_pos_iff]
  constructor
  · rintro ⟨slot, hmem, hle⟩
    cases hmin : free.min? with
    | none =>
      rw [List.min?_eq_none_iff] at hmin
      rw [hmin] at hmem
      cases hmem
    | some least =>
      have hleast := (List.min?_eq_some_iff.mp hmin).2 slot hmem
      exact ⟨least, rfl, by simp at hle; omega⟩
  · rintro ⟨slot, hmin, hle⟩
    exact ⟨slot, List.min?_mem hmin, by simpa using hle⟩

theorem serve_spec (hb : limit ≠ 0 → Balanced limit free before) :
    Serves limit before job (serve limit free job).1 := by
  unfold serve
  by_cases hl : limit = 0
  · rw [if_pos hl]
    refine ⟨fun t ht => by simpa [Span.hasBegun] using ht, by simp, fun t ht => ?_⟩
    simp [Span.hasBegun, hl, ht]
  · rw [if_neg hl]
    have hbegun : ∀ t, 0 < vacant free t ↔ limit = 0 ∨ unfinished before t < limit := by
      intro t
      have := hb hl t
      omega
    cases hmin : free.min? with
    | none =>
      refine ⟨fun t ht => by simp [Span.hasBegun] at ht, rfl, fun t _ => ?_⟩
      rw [← hbegun, vacant_pos, hmin]
      simp [Span.hasBegun]
    | some slot =>
      refine ⟨fun t ht => ?_, by simp, fun t ht => ?_⟩
      · simp [Span.hasBegun] at ht
        omega
      · rw [← hbegun, vacant_pos, hmin]
        simp [Span.hasBegun]
        omega

theorem vacant_erase {slot : Nat} (h : slot ∈ free) (t : Nat) :
    vacant free t = vacant (free.erase slot) t + if slot ≤ t then 1 else 0 := by
  rw [vacant, (List.perm_cons_erase h).countP_eq, List.countP_cons]
  simp [vacant]

/-- The slot that a job takes is vacant again when the job is over. -/
theorem serve_balanced (hl : limit ≠ 0) (hb : Balanced limit free before) :
    Balanced limit (serve limit free job).2 (before ++ [(serve limit free job).1]) := by
  intro t
  obtain ⟨henough, hexact⟩ := hb t
  have hunfinished : ∀ span, unfinished (before ++ [span]) t =
      unfinished before t + if span.isOver t then 0 else 1 := by
    intro span
    cases hover : span.isOver t <;> simp [unfinished, hover]
  have hvacant : 0 < vacant free t ↔ ∃ slot, free.min? = some slot ∧ slot ≤ t := vacant_pos
  rw [serve, if_neg hl]
  cases hmin : free.min? with
  | none =>
    have hnone : ¬0 < vacant free t := by simp [hvacant, hmin]
    simp only [hunfinished]
    omega
  | some slot =>
    have hslot := vacant_erase (List.min?_mem hmin) t
    have hsome : 0 < vacant free t ↔ slot ≤ t := by simp [hvacant, hmin]
    -- The slot was vacant at that moment if the job is over by then.
    have hback : ∀ span : Span, (∀ e, span.ended = some e → slot ≤ e) →
        vacant (span.ended.toList ++ free.erase slot) t + (if span.isOver t then 0 else 1) =
          vacant (free.erase slot) t + 1 ∧ (span.isOver t = true → slot ≤ t) := by
      rintro ⟨begun, ended⟩ hafter
      cases ended with
      | none => simp [vacant, Span.isOver]
      | some e =>
        have hle : slot ≤ e := hafter e rfl
        by_cases he : e ≤ t
        · simp [vacant, Span.isOver, he]
          omega
        · simp [vacant, Span.isOver, he]
    obtain ⟨hsum, hover⟩ := hback ⟨some (max slot job.arrival),
        job.length.map (max slot job.arrival + ·)⟩ fun e he => by
      obtain ⟨length, -, rfl⟩ := Option.map_eq_some_iff.mp he
      omega
    dsimp only at hsum
    simp only [hunfinished]
    generalize (⟨some (max slot job.arrival), job.length.map (max slot job.arrival + ·)⟩ :
      Span).isOver t = gone at hsum hover ⊢
    by_cases hs : slot ≤ t
    · rw [if_pos hs] at hslot
      have := hexact (hsome.mpr hs)
      omega
    · rw [if_neg hs] at hslot
      have hopen : ¬gone = true := fun h => hs (hover h)
      rw [if_neg hopen] at hsum ⊢
      omega

theorem replicate_balanced (limit : Nat) : Balanced limit (List.replicate limit 0) [] := by
  intro t
  have hall : vacant (List.replicate limit 0) t = limit := by
    rw [vacant, List.countP_replicate]
    simp
  rw [hall]
  simp [unfinished]

theorem timetableFrom_length (limit : Nat) (free : List Nat) (jobs : List Job) :
    (timetableFrom limit free jobs).length = jobs.length := by
  induction jobs generalizing free with
  | nil => rfl
  | cons job jobs ih => simp [timetableFrom, ih]

theorem timetable_length (limit : Nat) (jobs : List Job) :
    (timetable limit jobs).length = jobs.length := timetableFrom_length limit _ jobs

theorem timetableFrom_append (limit : Nat) (free : List Nat) (jobs more : List Job) :
    ∃ later, timetableFrom limit free (jobs ++ more) =
      timetableFrom limit free jobs ++ later := by
  induction jobs generalizing free with
  | nil => exact ⟨_, rfl⟩
  | cons job jobs ih =>
    obtain ⟨later, hlater⟩ := ih (serve limit free job).2
    exact ⟨later, by rw [List.cons_append, timetableFrom, hlater]; rfl⟩

theorem timetableFrom_serves (hb : limit ≠ 0 → Balanced limit free before) {i : Nat}
    {span : Span} (h : (timetableFrom limit free jobs)[i]? = some span) :
    ∃ job, jobs[i]? = some job ∧
      Serves limit (before ++ (timetableFrom limit free jobs).take i) job span := by
  induction jobs generalizing free before i with
  | nil => cases h
  | cons job jobs ih =>
    cases i with
    | zero =>
      cases h
      have hfirst : Serves limit before job (serve limit free job).1 := serve_spec hb
      exact ⟨job, rfl, by rwa [List.take_zero, List.append_nil]⟩
    | succ i =>
      obtain ⟨job', hjob, hserves⟩ := ih (fun hl => serve_balanced hl (hb hl)) h
      refine ⟨job', hjob, ?_⟩
      rwa [timetableFrom, List.take_succ_cons, List.append_cons]

/-- A job begins when fewer jobs before it than there are slots are not over. -/
theorem timetable_serves {i : Nat} {span : Span} (h : (timetable limit jobs)[i]? = some span) :
    ∃ job, jobs[i]? = some job ∧ Serves limit ((timetable limit jobs).take i) job span := by
  obtain ⟨job, hjob, hserves⟩ := timetableFrom_serves (fun _ => replicate_balanced limit) h
  exact ⟨job, hjob, by rwa [List.nil_append] at hserves⟩

theorem timetable_append (limit : Nat) (jobs more : List Job) {i : Nat} (hi : i < jobs.length) :
    (timetable limit (jobs ++ more))[i]? = (timetable limit jobs)[i]? := by
  obtain ⟨later, hlater⟩ := timetableFrom_append limit (List.replicate limit 0) jobs more
  rw [timetable, hlater, timetable, List.getElem?_append_left (by rwa [timetableFrom_length])]

theorem over_begun {before : List Span} {span : Span} (h : Serves limit before job span) {t : Nat}
    (ho : span.isOver t = true) : span.hasBegun t = true := by
  have hended := h.ended
  cases hb : span.begun with
  | none => simp [Span.isOver, hended, hb] at ho
  | some begun =>
    cases hl : job.length with
    | none => simp [Span.isOver, hended, hb, hl] at ho
    | some length =>
      simp [Span.isOver, hended, hb, hl] at ho
      simp [Span.hasBegun, hb]
      omega

theorem begun_at {span : Span} {t : Nat} (hb : span.hasBegun t = true)
    (hl : ∀ u, span.hasBegun u = true → t ≤ u) : span.begun = some t := by
  cases hs : span.begun with
  | none => simp [Span.hasBegun, hs] at hb
  | some b =>
    have hle : b ≤ t := by simpa [Span.hasBegun, hs] using hb
    have hge := hl b (by simp [Span.hasBegun, hs])
    rw [Nat.le_antisymm hle hge]

/-- When all jobs that have begun are over, none is left. -/
theorem begun_over {t : Nat} (ha : ∀ job ∈ jobs, job.arrival ≤ t)
    (h : ∀ span ∈ timetable limit jobs, span.hasBegun t = true → span.isOver t = true) :
    ∀ span ∈ timetable limit jobs, span.isOver t = true := by
  -- By induction on the number of the job: all that come before it are over, so it has begun.
  have hall : ∀ (i : Nat) (span : Span), (timetable limit jobs)[i]? = some span →
      span.isOver t = true := by
    intro i
    induction i using Nat.strongRecOn with
    | ind i ih =>
      intro span hspan
      obtain ⟨job, hjob, hserves⟩ := timetable_serves hspan
      refine h span (List.mem_of_getElem? hspan) ?_
      have hnone : unfinished ((timetable limit jobs).take i) t = 0 := by
        rw [unfinished, List.countP_eq_zero]
        intro other hother
        obtain ⟨j, hj⟩ := List.mem_iff_getElem?.mp hother
        rw [List.getElem?_take] at hj
        split at hj
        · simp [ih j ‹_› other hj]
        · cases hj
      rw [hserves.begun t (ha job (List.mem_of_getElem? hjob)), hnone]
      omega
  intro span hspan
  obtain ⟨i, hi⟩ := List.mem_iff_getElem?.mp hspan
  exact hall i span hi

end

section
variable {n start : Nat} {spans : List Span}

theorem mem_relevant {close : Option Nat} {span : Span} : span ∈ relevant close spans ↔
    span ∈ spans ∧ ∀ c, close = some c → span.hasBegun c = true := by
  cases close <;> simp [relevant]

theorem all_over_mono {m : Nat} (h : AllOver spans n) (hle : n ≤ m) : AllOver spans m := by
  intro span hspan
  have hover := h span hspan
  cases he : span.ended with
  | none => simp [Span.isOver, he] at hover
  | some e =>
    simp [Span.isOver, he] at hover ⊢
    omega

theorem lastEnd_le (hs : start ≤ n) (h : AllOver spans n) : lastEnd start spans ≤ n := by
  induction spans with
  | nil => exact hs
  | cons span spans ih =>
    have hrest := ih fun other hother => h other (List.mem_cons_of_mem span hother)
    have hover := h span List.mem_cons_self
    cases he : span.ended with
    | none => simp [Span.isOver, he] at hover
    | some e =>
      simp [Span.isOver, he] at hover
      simp only [lastEnd, List.foldr_cons, he, Option.elim_some] at hrest ⊢
      omega

theorem start_le (start : Nat) (spans : List Span) : start ≤ lastEnd start spans := by
  induction spans with
  | nil => exact Nat.le_refl start
  | cons span spans ih =>
    cases he : span.ended with
    | none => simpa [lastEnd, he] using ih
    | some e =>
      simp only [lastEnd, List.foldr_cons, he, Option.elim_some] at ih ⊢
      omega

theorem end_le {span : Span} {e : Nat} (hspan : span ∈ spans) (he : span.ended = some e) :
    e ≤ lastEnd start spans := by
  induction spans with
  | nil => cases hspan
  | cons other spans ih =>
    rcases List.mem_cons.mp hspan with rfl | hmem
    · simp only [lastEnd, List.foldr_cons, he, Option.elim_some]
      omega
    · have hrest := ih hmem
      cases ho : other.ended with
      | none => simpa [lastEnd, ho] using hrest
      | some o =>
        simp only [lastEnd, List.foldr_cons, ho, Option.elim_some] at hrest ⊢
        omega

theorem lastEnd_at (hs : start ≤ n) (h : AllOver spans n)
    (hat : n = start ∨ ∃ span ∈ spans, span.ended = some n) : n = lastEnd start spans := by
  have hle := lastEnd_le hs h
  rcases hat with rfl | ⟨span, hspan, he⟩
  · have hge := start_le n spans
    omega
  · have hge : n ≤ lastEnd start spans := end_le hspan he
    omega

end
end Wiretap.Pool
