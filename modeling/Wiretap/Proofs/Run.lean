/-! Runs of a machine whose step may fail: one input after another, with all
that was done on the way. A machine of several parts keeps them in a list. -/

set_option autoImplicit false

namespace Wiretap

section
variable {σ ι α : Type} {step : σ → ι → Option (σ × List α)}

def runAll (step : σ → ι → Option (σ × List α)) : List ι → σ → Option (σ × List α)
  | [], s => some (s, [])
  | i :: inputs, s => do
    let (s, first) ← step s i
    let (s, later) ← runAll step inputs s
    some (s, first ++ later)

theorem run_cons {i : ι} {inputs : List ι} {s t : σ} {acts : List α}
    (h : runAll step (i :: inputs) s = some (t, acts)) :
    ∃ m first later, step s i = some (m, first) ∧ runAll step inputs m = some (t, later) ∧
      acts = first ++ later := by
  obtain ⟨⟨m, first⟩, hm, h⟩ := Option.bind_eq_some_iff.mp h
  obtain ⟨⟨u, later⟩, hu, h⟩ := Option.bind_eq_some_iff.mp h
  cases h
  exact ⟨m, first, later, hm, hu, rfl⟩

/-- One run after another. -/
theorem run_append {inputs others : List ι} {s t u : σ} {acts more : List α}
    (h : runAll step inputs s = some (t, acts)) (ho : runAll step others t = some (u, more)) :
    runAll step (inputs ++ others) s = some (u, acts ++ more) := by
  induction inputs generalizing s acts with
  | nil =>
    cases h
    exact ho
  | cons i inputs ih =>
    obtain ⟨m, first, later, hi, hrest, rfl⟩ := run_cons h
    rw [List.cons_append, runAll, hi]
    show (do let (s, later) ← runAll step (inputs ++ others) m; some (s, first ++ later)) = _
    rw [ih hrest, List.append_assoc]
    rfl

/-- A run falls into one after another as its inputs do. -/
theorem run_split {inputs others : List ι} {s u : σ} {acts : List α}
    (h : runAll step (inputs ++ others) s = some (u, acts)) :
    ∃ t first later, runAll step inputs s = some (t, first) ∧
      runAll step others t = some (u, later) ∧ acts = first ++ later := by
  induction inputs generalizing s acts with
  | nil => exact ⟨s, [], acts, rfl, h, rfl⟩
  | cons i inputs ih =>
    obtain ⟨m, said, rest, hi, hrest, rfl⟩ := run_cons h
    obtain ⟨t, first, later, hfirst, hlater, rfl⟩ := ih hrest
    refine ⟨t, said ++ first, later, ?_, hlater, by rw [List.append_assoc]⟩
    rw [runAll, hi]
    show (do let (s, later) ← runAll step inputs m; some (s, said ++ later)) = _
    rw [hfirst]
    rfl

theorem run_one {i : ι} {s t : σ} {acts : List α} (h : step s i = some (t, acts)) :
    runAll step [i] s = some (t, acts) := by
  simp [runAll, h]

theorem run_concat {i : ι} {inputs : List ι} {s t u : σ} {acts more : List α}
    (h : runAll step inputs s = some (t, acts)) (hi : step t i = some (u, more)) :
    runAll step (inputs ++ [i]) s = some (u, acts ++ more) :=
  run_append h (run_one hi)

/-- What holds at the beginning and is kept by each step holds at the end of every run. The
inputs taken so far and all that was done may be spoken of. -/
theorem run_invariant {P : List ι → σ → List α → Prop} {s t : σ} {inputs : List ι}
    {acts : List α}
    (hstep : ∀ taken s acts i t more, P taken s acts → step s i = some (t, more) →
      P (taken ++ [i]) t (acts ++ more))
    (hs : P [] s []) (h : runAll step inputs s = some (t, acts)) : P inputs t acts := by
  suffices hall : ∀ (inputs taken : List ι) (s : σ) (done acts : List α), P taken s done →
      runAll step inputs s = some (t, acts) → P (taken ++ inputs) t (done ++ acts) by
    simpa using hall inputs [] s [] acts hs h
  intro inputs
  induction inputs with
  | nil =>
    intro taken s done acts hp h
    cases h
    simpa using hp
  | cons i inputs ih =>
    intro taken s done acts hp h
    obtain ⟨m, first, later, hi, hrest, rfl⟩ := run_cons h
    have := ih (taken ++ [i]) m (done ++ first) later (hstep taken s done i m first hp hi) hrest
    simpa using this

theorem part_same {parts : List σ} {k : Nat} {part : σ} (h : parts[k]? = some part) :
    parts.set k part = parts := by
  obtain ⟨hlt, hk⟩ := List.getElem?_eq_some_iff.mp h
  rw [← hk, List.set_getElem_self]

theorem part_set {parts : List σ} {k : Nat} {part : σ} (h : parts[k]? = some part) (next : σ)
    (j : Nat) : (parts.set k next)[j]? = if j = k then some next else parts[j]? := by
  obtain ⟨hlt, -⟩ := List.getElem?_eq_some_iff.mp h
  by_cases hj : j = k
  · simp [hj, hlt]
  · rw [if_neg hj, List.getElem?_set_ne (Ne.symm hj)]

end

end Wiretap
