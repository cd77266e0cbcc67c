import Wiretap.Proofs.Registry.Order

/-! Some of the connections of a registry, whichever they are, make a registry of their own.
It is the one that would be there if only they had ever been named. So what becomes of a
connection depends on the calls that name it, and on when the registry was cleared. -/

set_option autoImplicit false

namespace Wiretap.Registry

def Call.subject : Call → Option ConnectionId
  | .register id _ _ _ => some id
  | .registerClient client => some client.id
  | .addPacket id _ => some id
  | .close id _ => some id
  | .clear => none

def Call.names (which : ConnectionId → Bool) (call : Call) : Bool := call.subject.any which

def Call.concerns (which : ConnectionId → Bool) (call : Call) : Bool := call.subject.all which

def Call.isRegistration : Call → Bool
  | .register _ _ _ _ => true
  | .registerClient _ => true
  | _ => false

def about (which : ConnectionId → Bool) (calls : List Call) : List Call :=
  calls.filter (·.concerns which)

def portion (which : ConnectionId → Bool) (r : Registry) : Registry :=
  ⟨r.order.filter which, r.entries.filter (fun e => which e.1)⟩

def replies (r : Registry) : List Call → List (Call × Reply)
  | [] => []
  | call :: calls => (call, (r.apply call.operation).reply) ::
      replies (r.apply call.operation).registry calls

def answers (which : ConnectionId → Bool) (calls : List Call) : List (Call × Reply) :=
  (replies .empty calls).filter (·.1.names which)

section
variable {which : ConnectionId → Bool} {r : Registry} {id : ConnectionId} {c : Connection}
  {call : Call}

theorem portion_get (h : which id = true) : (r.portion which).get? id = r.get? id := by
  simp only [get?, portion]
  induction r.entries with
  | nil => rfl
  | cons entry entries ih =>
    obtain ⟨key, value⟩ := entry
    by_cases hk : id = key
    · subst hk
      simp [h]
    · have hne : (id == key) = false := by simpa using hk
      rw [List.lookup_cons, hne, ← ih, List.filter_cons]
      split
      · rw [List.lookup_cons, hne]
      · rfl

theorem portion_put (c : Connection) : (r.put c).portion which = (r.portion which).put c := by
  have hkey : ∀ e : ConnectionId × Connection, (if e.1 = c.id then (e.1, c) else e).1 = e.1 :=
    fun e => by split <;> rfl
  simp only [portion, put, List.filter_map, Function.comp_def, hkey]

theorem portion_put_other (h : which c.id = false) : (r.put c).portion which = r.portion which := by
  rw [portion_put, put]
  have hsame : ∀ e ∈ (r.portion which).entries, (if e.1 = c.id then (e.1, c) else e) = e := by
    intro e he
    have hin : which e.1 = true := (List.mem_filter.mp he).2
    rw [if_neg fun heq => by simp [heq, h] at hin]
  rw [List.map_congr_left hsame, List.map_id']

structure Follows (which : ConnectionId → Bool) (r : Registry) (op : Operation) : Prop where
  registry : (r.apply op).registry.portion which = ((r.portion which).apply op).registry
  reply : (r.apply op).reply = ((r.portion which).apply op).reply

theorem register_follows (h : which c.id = true) : Follows which r (.register c) := by
  have hget : (r.portion which).get? c.id = r.get? c.id := portion_get h
  cases hc : r.get? c.id with
  | some existing =>
    constructor <;> simp [apply, register, hget, hc]
  | none =>
    constructor
    · simp only [apply, register, hget, hc]
      simp [portion, List.filter_append, h]
    · simp [apply, register, hget, hc]

theorem addPacket_follows (h : which id = true) (p : Packet) :
    Follows which r (.addPacket id p) := by
  have hget : (r.portion which).get? id = r.get? id := portion_get h
  cases hc : r.get? id <;> constructor <;> simp [apply, addPacket, hget, hc, portion_put]

theorem close_follows (h : which id = true) (time : Timestamp) :
    Follows which r (.close id time) := by
  have hget : (r.portion which).get? id = r.get? id := portion_get h
  cases hc : r.get? id with
  | none => constructor <;> simp [apply, close, hget, hc]
  | some c =>
    cases hactive : c.active <;> constructor <;>
      simp [apply, close, hget, hc, hactive, portion_put]

theorem call_follows (h : call.concerns which = true) : Follows which r call.operation := by
  cases call with
  | register id address port time => exact register_follows h
  | registerClient client => exact register_follows h
  | addPacket id p => exact addPacket_follows h p
  | close id time => exact close_follows h time
  | clear => exact ⟨rfl, rfl⟩

theorem register_unseen (h : which c.id = false) :
    (r.register c).registry.portion which = r.portion which := by
  cases hget : r.get? c.id <;> simp [register, hget, portion, List.filter_append, h]

/-- Calls about other connections are not seen in a portion. -/
theorem call_unseen (hr : Tidy r) (h : call.concerns which = false) :
    (r.apply call.operation).registry.portion which = r.portion which := by
  have hput : ∀ {id : ConnectionId} {c : Connection} (next : Connection), which id = false →
      r.get? id = some c → next.id = c.id → (r.put next).portion which = r.portion which := by
    intro id c next hid hget hnext
    have hfiled : c.id = id := hr.filed _ ((tidy_get hr).mp hget)
    exact portion_put_other (by rw [hnext, hfiled, hid])
  cases call with
  | register id address port time => exact register_unseen h
  | registerClient client => exact register_unseen h
  | addPacket id p =>
    cases hget : r.get? id with
    | none => simp [Call.operation, apply, addPacket, hget]
    | some c =>
      simp only [Call.operation, apply, addPacket, hget]
      exact hput { c with packets := c.packets ++ [p] } h hget rfl
  | close id time =>
    cases hget : r.get? id with
    | none => simp [Call.operation, apply, close, hget]
    | some c =>
      cases hactive : c.active with
      | false => simp [Call.operation, apply, close, hget, hactive]
      | true =>
        simp only [Call.operation, apply, close, hget, hactive, if_true]
        exact hput { c with active := false, closed := some time } h hget rfl
  | clear => cases h

theorem about_concat (calls : List Call) (call : Call) : about which (calls ++ [call]) =
    about which calls ++ if call.concerns which then [call] else [] := by
  simp only [about, List.filter_append, List.filter_cons, List.filter_nil]

theorem after_concat (calls : List Call) (call : Call) :
    after (calls ++ [call]) = ((after calls).apply call.operation).registry :=
  List.foldl_concat _ _ _ _

/-- A portion is the registry that would be there without the other calls. -/
theorem portion_after (which : ConnectionId → Bool) (calls : List Call) :
    (after calls).portion which = after (about which calls) := by
  induction calls using List.reverseRecOn with
  | nil => rfl
  | append_singleton calls call ih =>
    rw [about_concat, after_concat]
    cases hc : call.concerns which with
    | true => rw [(call_follows hc).registry, ih, if_pos rfl, after_concat]
    | false =>
      rw [call_unseen (after_tidy calls).1 hc, ih, if_neg Bool.false_ne_true, List.append_nil]

theorem names_concerns (h : call.names which = true) : call.concerns which = true := by
  cases hs : call.subject with
  | none => simp [Call.names, hs] at h
  | some id => simpa [Call.names, Call.concerns, hs] using h

/-- A call replies what it would reply without the calls that do not concern its connection. -/
theorem replies_portion (hr : Tidy r) (calls : List Call) :
    (replies r calls).filter (·.1.names which) =
      (replies (r.portion which) (about which calls)).filter (·.1.names which) := by
  induction calls generalizing r with
  | nil => rfl
  | cons call calls ih =>
    have hrest := ih (tidy_call hr call)
    cases hc : call.concerns which with
    | true =>
      have hfollows : Follows which r call.operation := call_follows hc
      rw [about, List.filter_cons, if_pos hc, replies, replies, ← hfollows.reply,
        ← hfollows.registry, List.filter_cons, List.filter_cons, hrest]
      rfl
    | false =>
      have hnames : call.names which = false := by
        cases hn : call.names which with
        | false => rfl
        | true => rw [names_concerns hn] at hc; cases hc
      rw [call_unseen hr hc] at hrest
      rw [about, List.filter_cons, if_neg (by simp [hc]), replies, List.filter_cons,
        if_neg (by simp [hnames]), hrest]
      rfl

theorem answers_about (which : ConnectionId → Bool) (calls : List Call) :
    answers which calls = answers which (about which calls) :=
  replies_portion tidy_empty calls

theorem snapshot_portion (which : ConnectionId → Bool) (calls : List Call) :
    (after calls).snapshot.filter (fun c => which c.id) = (after (about which calls)).snapshot := by
  have h := (after_tidy calls).1
  have hids : ∀ e ∈ (after calls).entries, which e.2.id = which e.1 := fun e he => by
    rw [h.filed e he]
  rw [snapshot_entries (after_tidy (about which calls)).1, snapshot_entries h, ← portion_after,
    portion, List.filter_map]
  exact congrArg _ (List.filter_congr hids)

end

section
variable {a b : Call} {x y : ConnectionId} {front back : List Call}

def Turned {α : Type} (x y : α) (xs ys : List α) : Prop :=
  xs = ys ∨ ∃ front back, xs = front ++ x :: y :: back ∧ ys = front ++ y :: x :: back

/-- Further calls add to what was requested, or forget all of it. -/
theorem requests_further (calls : List Call) : ∃ more : List ConnectionId,
    (∀ ids, calls.foldl Call.requests ids = ids ++ more) ∨
      ∀ ids, calls.foldl Call.requests ids = more := by
  induction calls with
  | nil => exact ⟨[], .inl fun ids => (List.append_nil ids).symm⟩
  | cons call calls ih =>
    obtain ⟨more, hadd | hforget⟩ := ih
    · cases call with
      | register id address port time =>
        exact ⟨id :: more, .inl fun ids => by simp [Call.requests, hadd]⟩
      | registerClient client =>
        exact ⟨client.id :: more, .inl fun ids => by simp [Call.requests, hadd]⟩
      | clear => exact ⟨more, .inr fun ids => by simp [Call.requests, hadd]⟩
      | _ => exact ⟨more, .inl fun ids => by simp [Call.requests, hadd]⟩
    · exact ⟨more, .inr fun ids => hforget _⟩

theorem requests_registration (h : a.isRegistration = true) (ha : a.subject = some x)
    (ids : List ConnectionId) : a.requests ids = ids ++ [x] := by
  cases a with
  | register => cases ha; rfl
  | registerClient => cases ha; rfl
  | _ => cases h

theorem requests_other (h : a.isRegistration = false) (ha : a.subject = some x)
    (ids : List ConnectionId) : a.requests ids = ids := by
  cases a with
  | addPacket => rfl
  | close => rfl
  | clear => cases ha
  | _ => cases h

/-- Only two registrations that change places are requested the other way round. -/
theorem requested_swap (ha : a.subject = some x) (hb : b.subject = some y) :
    requested (front ++ a :: b :: back) = requested (front ++ b :: a :: back) ∨
      a.isRegistration = true ∧ b.isRegistration = true ∧ ∃ first rest,
        requested (front ++ a :: b :: back) = first ++ x :: y :: rest ∧
        requested (front ++ b :: a :: back) = first ++ y :: x :: rest := by
  simp only [requested, List.foldl_append, List.foldl_cons]
  cases hra : a.isRegistration with
  | false => exact .inl (by simp only [requests_other hra ha])
  | true =>
    cases hrb : b.isRegistration with
    | false => exact .inl (by simp only [requests_other hrb hb])
    | true =>
      simp only [requests_registration hra ha, requests_registration hrb hb]
      obtain ⟨more, hadd | hforget⟩ := requests_further back
      · refine .inr ⟨trivial, trivial, front.foldl Call.requests [], more, ?_, ?_⟩
        · simp [hadd]
        · simp [hadd]
      · exact .inl (by simp only [hforget])

theorem eraseDups_pair (hxy : x ≠ y) (ids : List ConnectionId) : (x :: y :: ids).eraseDups =
    x :: y :: (ids.filter fun id => id != x && id != y).eraseDups := by
  simp [List.eraseDups_cons, hxy.symm, List.filter_filter, Bool.and_comm, bne]

/-- Two neighbours stay neighbours when repetitions go, unless one of them was there before. -/
theorem eraseDups_turned (hxy : x ≠ y) (first rest : List ConnectionId) :
    Turned x y (first ++ x :: y :: rest).eraseDups (first ++ y :: x :: rest).eraseDups := by
  rw [List.eraseDups_append, List.eraseDups_append]
  by_cases hx : x ∈ first
  · exact .inl (by simp [List.removeAll, hx, List.filter_cons])
  · by_cases hy : y ∈ first
    · exact .inl (by simp [List.removeAll, hy, List.filter_cons])
    · have hleft : ∀ {x y : ConnectionId}, x ∉ first → y ∉ first →
          (x :: y :: rest).removeAll first = x :: y :: rest.removeAll first := by
        intro x y hx hy
        simp [List.removeAll, hx, hy]
      rw [hleft hx hy, hleft hy hx, eraseDups_pair hxy, eraseDups_pair hxy.symm]
      simp only [Bool.and_comm]
      exact .inr ⟨_, _, rfl, rfl⟩

theorem about_swap (ha : a.subject = some x) (hb : b.subject = some y) (hxy : x ≠ y)
    (id : ConnectionId) :
    about (· == id) (front ++ a :: b :: back) = about (· == id) (front ++ b :: a :: back) := by
  have hone : a.concerns (· == id) = false ∨ b.concerns (· == id) = false := by
    by_cases hid : x = id
    · exact .inr (by simpa [Call.concerns, hb, ← hid] using hxy.symm)
    · exact .inl (by simpa [Call.concerns, ha] using hid)
  rcases hone with h | h <;> simp [about, List.filter_cons, h]

theorem after_get (calls : List Call) (id : ConnectionId) :
    (after calls).get? id = (after (about (· == id) calls)).get? id := by
  rw [← portion_after, portion_get (by simp)]

theorem get_swap (ha : a.subject = some x) (hb : b.subject = some y) (hxy : x ≠ y) :
    (after (front ++ a :: b :: back)).get? = (after (front ++ b :: a :: back)).get? := by
  funext id
  rw [after_get, about_swap ha hb hxy, ← after_get]

theorem order_swap (ha : a.subject = some x) (hb : b.subject = some y) (hxy : x ≠ y) :
    (after (front ++ a :: b :: back)).order = (after (front ++ b :: a :: back)).order ∨
      a.isRegistration = true ∧ b.isRegistration = true ∧
        Turned x y (after (front ++ a :: b :: back)).order
          (after (front ++ b :: a :: back)).order := by
  rw [(after_tidy _).2, (after_tidy _).2]
  rcases requested_swap ha hb with hsame | ⟨hra, hrb, first, rest, hab, hba⟩
  · exact .inl (congrArg _ hsame)
  · rw [hab, hba]
    exact .inr ⟨hra, hrb, eraseDups_turned hxy first rest⟩

/-- A snapshot at most shows two connections the other way round, and only when their
registrations have changed places. -/
theorem snapshot_swap (ha : a.subject = some x) (hb : b.subject = some y) (hxy : x ≠ y) :
    (after (front ++ a :: b :: back)).snapshot = (after (front ++ b :: a :: back)).snapshot ∨
      a.isRegistration = true ∧ b.isRegistration = true ∧ ∃ c d, c.id = x ∧ d.id = y ∧
        Turned c d (after (front ++ a :: b :: back)).snapshot
          (after (front ++ b :: a :: back)).snapshot := by
  obtain ⟨htidy, -⟩ := after_tidy (front ++ a :: b :: back)
  rw [snapshot, snapshot, ← get_swap ha hb hxy]
  rcases order_swap ha hb hxy with hsame | ⟨hra, hrb, hsame | ⟨first, rest, hab, hba⟩⟩
  · exact .inl (by rw [hsame])
  · exact .inl (by rw [hsame])
  · have hheld : ∀ id ∈ first ++ x :: y :: rest,
        ∃ c, (after (front ++ a :: b :: back)).get? id = some c ∧ c.id = id := by
      intro id hid
      obtain ⟨c, hc⟩ := (tidy_mem htidy).mp (hab ▸ hid)
      exact ⟨c, hc, htidy.filed _ ((tidy_get htidy).mp hc)⟩
    obtain ⟨c, hc, hcid⟩ := hheld x (by simp)
    obtain ⟨d, hd, hdid⟩ := hheld y (by simp)
    generalize (after (front ++ a :: b :: back)).get? = get at hc hd
    rw [hab, hba]
    refine .inr ⟨hra, hrb, c, d, hcid, hdid, .inr ⟨first.filterMap get, rest.filterMap get, ?_, ?_⟩⟩
    · simp [hc, hd]
    · simp [hc, hd]

end

/-- What becomes of a connection, and what the calls that name it reply, depends on those calls
and on clearing alone; a snapshot shows some of the connections as it would without the other
calls. So two calls on different connections may change places: each connection and each reply
is as before, and so is every snapshot, unless both calls register, when it may show the two
new connections the other way round. -/
theorem connections_apart :
    (∀ (calls : List Call) (id : ConnectionId),
      (after calls).get? id = (after (about (· == id) calls)).get? id ∧
      (after calls).contains id = (after (about (· == id) calls)).contains id ∧
      answers (· == id) calls = answers (· == id) (about (· == id) calls)) ∧
    (∀ (calls : List Call) (which : ConnectionId → Bool),
      (after calls).snapshot.filter (fun c => which c.id) = (after (about which calls)).snapshot) ∧
    ∀ (front back : List Call) (a b : Call) (x y : ConnectionId),
      a.subject = some x → b.subject = some y → x ≠ y →
        (∀ id, (after (front ++ a :: b :: back)).get? id =
            (after (front ++ b :: a :: back)).get? id ∧
          (after (front ++ a :: b :: back)).contains id =
            (after (front ++ b :: a :: back)).contains id ∧
          answers (· == id) (front ++ a :: b :: back) =
            answers (· == id) (front ++ b :: a :: back)) ∧
        ((after (front ++ a :: b :: back)).snapshot = (after (front ++ b :: a :: back)).snapshot ∨
          a.isRegistration = true ∧ b.isRegistration = true ∧ ∃ c d, c.id = x ∧ d.id = y ∧
            Turned c d (after (front ++ a :: b :: back)).snapshot
              (after (front ++ b :: a :: back)).snapshot) := by
  refine ⟨fun calls id => ?_, fun calls which => snapshot_portion which calls,
    fun front back a b x y ha hb hxy => ⟨fun id => ?_, snapshot_swap ha hb hxy⟩⟩
  · have hget := after_get calls id
    exact ⟨hget, by rw [contains, contains, hget], answers_about _ calls⟩
  · have hget : (after (front ++ a :: b :: back)).get? id =
        (after (front ++ b :: a :: back)).get? id := by rw [get_swap ha hb hxy]
    refine ⟨hget, by rw [contains, contains, hget], ?_⟩
    rw [answers_about, about_swap ha hb hxy, ← answers_about]

def laterCall : Call := .register (.ofNat 2) "10.0.0.8" 9 default

def earlierCall : Call := .register (.ofNat 3) "10.0.0.9" 9 default

def firstCalls : List Call := [.register (.ofNat 1) "10.0.0.7" 9 default, .close (.ofNat 3) default]

def lastCalls : List Call := [.addPacket (.ofNat 3) default, .close (.ofNat 2) default,
  .register (.ofNat 3) "10.0.0.8" 9 default, .addPacket (.ofNat 2) default]

/-- Two registrations change places among calls that refuse, close and repeat. -/
theorem connections_apart_crossed :
    laterCall.subject = some (.ofNat 2) ∧ earlierCall.subject = some (.ofNat 3) ∧
    (.ofNat 2 : ConnectionId) ≠ .ofNat 3 ∧
    (after (firstCalls ++ laterCall :: earlierCall :: lastCalls)).snapshot.map (·.id) =
      [.ofNat 1, .ofNat 2, .ofNat 3] ∧
    (after (firstCalls ++ earlierCall :: laterCall :: lastCalls)).snapshot.map (·.id) =
      [.ofNat 1, .ofNat 3, .ofNat 2] ∧
    ∀ id, (after (firstCalls ++ laterCall :: earlierCall :: lastCalls)).get? id =
      (after (firstCalls ++ earlierCall :: laterCall :: lastCalls)).get? id := by
  have h := connections_apart.2.2 firstCalls lastCalls laterCall earlierCall (.ofNat 2) (.ofNat 3)
    rfl rfl (by decide)
  exact ⟨rfl, rfl, by decide, by decide, by decide, fun id => (h.1 id).1⟩

end Wiretap.Registry
