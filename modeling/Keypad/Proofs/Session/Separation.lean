import Keypad.Proofs.Session.Objects

/-! # Sessions side by side

A program makes sessions at any time and calls them in any order (`Action`).  At every moment its
memory holds the objects of all sessions made so far, and no two of them share a state or a list
(`Separated`): a new session gets new objects, and a call of one session leaves the others alone.
So a run on objects never fails, and it shows what the sessions show as values (`run_eq`), of which
each goes its own way (`runAll_own`).  Hence sessions do not influence each other
(`sessions_independent`). -/

namespace Keypad

/-! ### Programs -/

/-- What a program does: it makes a session, or it calls the session with the given number, counted
in the order in which they were made. -/
inductive Action where
  | create (settings : Settings)
  | call (session : Nat) (c : Call)

/-- What is seen of a session at a call: what the call returns, and the session after it. -/
structure Sight where
  returned : Except KeyRefusal String
  view : View

/-- What is seen of a session that is a value. -/
def Reaction.sight (r : Reaction) : Sight := ⟨r.returned, r.session.view⟩

/-- **A run on objects**: the memory at the end, and what is seen at each call, together with the
number of the session.  Nothing is called before it is made. -/
def Memory.run (m : Memory) : List Action → Option (Memory × List (Nat × Sight))
  | [] => some (m, [])
  | .create settings :: actions => (m.create settings).run actions
  | .call i c :: actions =>
    if i < m.sessions.length then do
      let (m, returned) ← m.call i c
      let view ← m.view i
      let (m, later) ← m.run actions
      return (m, (i, ⟨returned, view⟩) :: later)
    else m.run actions

namespace Session

/-- **A run on values**: the sessions at the end, and their reactions, each with the number of the
session. -/
def runAll (sessions : List Session) : List Action → List Session × List (Nat × Reaction)
  | [] => (sessions, [])
  | .create settings :: actions => runAll (sessions ++ [start settings]) actions
  | .call i c :: actions =>
    match sessions[i]? with
    | none => runAll sessions actions
    | some s =>
      let r := s.react c
      let (sessions, later) := runAll (sessions.set i r.session) actions
      (sessions, (i, r) :: later)

/-- The reactions of a session to its calls. -/
def reactAll (s : Session) : List Call → List Reaction
  | [] => []
  | c :: calls => s.react c :: (s.react c).session.reactAll calls

theorem session_react (s : Session) (c : Call) : (s.react c).session = s.after c := by
  unfold react after
  split <;> rfl

/-- Calls of sessions that were all made before. -/
theorem reactions_eq (sessions : List Session) (calls : List (Nat × Call)) :
    reactions sessions calls =
      (runAll sessions (calls.map fun (i, c) => .call i c)).2.map Prod.snd := by
  induction calls generalizing sessions with
  | nil => rfl
  | cons addressed calls ih =>
    obtain ⟨i, c⟩ := addressed
    rw [List.map_cons, reactions, runAll]
    cases sessions[i]? with
    | none => exact ih sessions
    | some s => exact congrArg (s.react c :: ·) (ih _)

end Session

/-! ### One session among others -/

/-- The settings of the sessions that are made. -/
def created : List Action → List Settings
  | [] => []
  | .create settings :: actions => settings :: created actions
  | .call _ _ :: actions => created actions

/-- The calls of one session, with `n` sessions made before. -/
def ownCalls (i : Nat) (n : Nat) : List Action → List Call
  | [] => []
  | .create _ :: actions => ownCalls i (n + 1) actions
  | .call j c :: actions =>
    if j = i ∧ i < n then c :: ownCalls i n actions else ownCalls i n actions

/-- What belongs to one session. -/
def seen {α : Type} (i : Nat) (trace : List (Nat × α)) : List α :=
  (trace.filter fun (j, _) => j = i).map Prod.snd

theorem seen_cons_self {α : Type} (i : Nat) (x : α) (trace : List (Nat × α)) :
    seen i ((i, x) :: trace) = x :: seen i trace := by
  simp [seen]

theorem seen_cons_of_ne {α : Type} {i j : Nat} (h : j ≠ i) (x : α) (trace : List (Nat × α)) :
    seen i ((j, x) :: trace) = seen i trace := by
  simp [seen, h]

namespace Session

/-- **Each session goes its own way**: it ends and reacts as its own calls alone make it. -/
theorem runAll_own {sessions : List Session} {actions : List Action} {i : Nat} {s : Session}
    (h : (sessions ++ (created actions).map start)[i]? = some s) :
    (runAll sessions actions).1[i]? = some (s.run (ownCalls i sessions.length actions)) ∧
      seen i (runAll sessions actions).2 = s.reactAll (ownCalls i sessions.length actions) := by
  induction actions generalizing sessions s with
  | nil =>
    simp only [created, List.map_nil, List.append_nil] at h
    exact ⟨h, rfl⟩
  | cons action actions ih =>
    cases action with
    | create settings =>
      have hlength : (sessions ++ [start settings]).length = sessions.length + 1 := by simp
      rw [runAll, ownCalls, ← hlength]
      exact ih (by simpa [created] using h)
    | call j c =>
      rw [runAll, ownCalls]
      rw [created] at h
      cases hj : sessions[j]? with
      | none =>
        have hlength : sessions.length ≤ j := List.getElem?_eq_none_iff.mp hj
        rw [if_neg (by omega)]
        exact ih h
      | some t =>
        have hlt : j < sessions.length := (List.getElem?_eq_some_iff.mp hj).1
        -- the sessions after the call, with those that are still to be made
        obtain ⟨after, hafter⟩ : ∃ l, l = sessions.set j (t.react c).session := ⟨_, rfl⟩
        have hlength : after.length = sessions.length := by rw [hafter, List.length_set]
        have hall : after ++ (created actions).map start =
            (sessions ++ (created actions).map start).set j (t.react c).session := by
          rw [hafter, List.set_append_left _ _ hlt]
        dsimp only
        rw [← hafter, ← hlength]
        by_cases hji : j = i
        · subst hji
          obtain rfl : t = s := by
            rw [List.getElem?_append_left hlt, hj] at h
            exact Option.some.inj h
          have hnext : (after ++ (created actions).map start)[j]? = some (t.react c).session := by
            rw [hall, List.getElem?_set_self (by rw [List.length_append]; omega)]
          obtain ⟨hlast, hseen⟩ := ih hnext
          rw [session_react] at hlast
          rw [if_pos ⟨rfl, hlength ▸ hlt⟩, seen_cons_self, hseen]
          exact ⟨hlast, rfl⟩
        · have hnext : (after ++ (created actions).map start)[i]? = some s := by
            rw [hall, List.getElem?_set_ne hji]
            exact h
          rw [if_neg fun hown => hji hown.1, seen_cons_of_ne hji]
          exact ih hnext

end Session

/-! ### Objects of all sessions -/

namespace Memory

variable {m : Memory} {sessions : List Session} {places : Nat → Places} {lists : Nat → Nat}

/-- **The objects of all sessions**: each has its own state and its own list of tokens. -/
structure Separated (m : Memory) (sessions : List Session) (places : Nat → Places)
    (lists : Nat → Nat) : Prop where
  count : m.sessions.length = sessions.length
  represents : ∀ i s, sessions[i]? = some s → m.Represents i (places i) (lists i) s
  apart : ∀ i < sessions.length, ∀ j < sessions.length, i ≠ j →
    Apart (places i) (lists i) (places j) (lists j)

theorem separated_empty (places : Nat → Places) (lists : Nat → Nat) :
    Separated .empty [] places lists where
  count := rfl
  represents i s h := by simp at h
  apart i hi := by simp at hi

theorem Represents.state_lt {i l : Nat} {p : Places} {s : Session} (h : m.Represents i p l s) :
    p.state < m.states.length := (List.getElem?_eq_some_iff.mp h.state).1

/-- The objects of a new session. -/
theorem represents_create (m : Memory) (settings : Settings) :
    (m.create settings).Represents m.sessions.length ⟨m.builders.length, m.states.length⟩
      m.lists.length (.start settings) where
  session := List.getElem?_concat_length
  builder := List.getElem?_concat_length
  state := List.getElem?_concat_length
  tokens := List.getElem?_concat_length

/-- The objects of the sessions made before. -/
theorem Represents.create {i l : Nat} {p : Places} {s : Session} (h : m.Represents i p l s)
    (settings : Settings) : (m.create settings).Represents i p l s where
  session := (List.getElem?_append_left (List.getElem?_eq_some_iff.mp h.session).1).trans h.session
  builder := (List.getElem?_append_left (List.getElem?_eq_some_iff.mp h.builder).1).trans h.builder
  state := (List.getElem?_append_left h.state_lt).trans h.state
  tokens := (List.getElem?_append_left h.list_lt).trans h.tokens

/-- **A new session** gets objects that no other session has. -/
theorem Separated.create (h : Separated m sessions places lists) (settings : Settings) :
    Separated (m.create settings) (sessions ++ [.start settings])
      (fun j => if j = sessions.length then ⟨m.builders.length, m.states.length⟩ else places j)
      (fun j => if j = sessions.length then m.lists.length else lists j) where
  count := by simp [Memory.create, h.count, Memory.newList]
  represents i s hi := by
    by_cases hlast : i = sessions.length
    · subst hlast
      obtain rfl : .start settings = s := by simpa using hi
      rw [if_pos rfl, if_pos rfl, ← h.count]
      exact represents_create m settings
    · have hlt := (List.getElem?_eq_some_iff.mp hi).1
      rw [List.length_append, List.length_singleton] at hlt
      rw [List.getElem?_append_left (by omega)] at hi
      rw [if_neg hlast, if_neg hlast]
      exact (h.represents i s hi).create settings
  apart i hi j hj hne := by
    rw [List.length_append, List.length_singleton] at hi hj
    have hbounds : ∀ k < sessions.length, (places k).state < m.states.length ∧
        lists k < m.lists.length := fun k hk =>
      have hrep := h.represents k _ (List.getElem?_eq_getElem hk)
      ⟨hrep.state_lt, hrep.list_lt⟩
    by_cases hilast : i = sessions.length
    · have hjlast : ¬ j = sessions.length := fun hj => hne (hilast.trans hj.symm)
      obtain ⟨hstate, hlist⟩ := hbounds j (by omega)
      rw [if_pos hilast, if_pos hilast, if_neg hjlast, if_neg hjlast]
      exact ⟨Nat.ne_of_lt hstate, Nat.ne_of_lt hlist⟩
    · obtain ⟨hstate, hlist⟩ := hbounds i (by omega)
      rw [if_neg hilast, if_neg hilast]
      by_cases hjlast : j = sessions.length
      · rw [if_pos hjlast, if_pos hjlast]
        exact ⟨Nat.ne_of_gt hstate, Nat.ne_of_gt hlist⟩
      · rw [if_neg hjlast, if_neg hjlast]
        exact h.apart i (by omega) j (by omega) hne

theorem Apart.symm {p q : Places} {l k : Nat} (h : Apart p l q k) : Apart q k p l :=
  ⟨h.state.symm, h.list.symm⟩

/-- **A call of one session** leaves the objects of the others as they are. -/
theorem Separated.call (h : Separated m sessions places lists) {i : Nat} {s : Session}
    (hi : sessions[i]? = some s) (c : Call) :
    ∃ m' lists', m.call i c = some (m', (s.react c).returned) ∧
      m'.view i = some (s.react c).session.view ∧
      Separated m' (sessions.set i (s.react c).session) places lists' := by
  have hlt : i < sessions.length := (List.getElem?_eq_some_iff.mp hi).1
  obtain ⟨m', l', hcall, hview, hadv, hrep⟩ := (h.represents i s hi).call c
  have hother : ∀ j t, j ≠ i → sessions[j]? = some t →
      m'.Represents j (places j) (lists j) t ∧ Apart (places i) l' (places j) (lists j) :=
    fun j t hne hj => (h.represents j t hj).other hadv hne
      (h.apart i hlt j (List.getElem?_eq_some_iff.mp hj).1 hne.symm)
  refine ⟨m', fun j => if j = i then l' else lists j, hcall, hview, ?_, ?_, ?_⟩
  · rw [hadv.count, h.count, List.length_set]
  · intro j t hj
    by_cases hji : j = i
    · subst hji
      rw [List.getElem?_set_self hlt] at hj
      rw [if_pos rfl, ← Option.some.inj hj]
      exact hrep
    · rw [List.getElem?_set_ne (Ne.symm hji)] at hj
      rw [if_neg hji]
      exact (hother j t hji hj).1
  · intro j hj k hk hne
    rw [List.length_set] at hj hk
    by_cases hji : j = i
    · subst hji
      rw [if_pos rfl, if_neg hne.symm]
      exact (hother k _ hne.symm (List.getElem?_eq_getElem hk)).2
    · rw [if_neg hji]
      by_cases hki : k = i
      · subst hki
        rw [if_pos rfl]
        exact (hother j _ hji (List.getElem?_eq_getElem hj)).2.symm
      · rw [if_neg hki]
        exact h.apart j hj k hk hne

/-- **A run on objects** does not fail and shows what a run on values shows. -/
theorem run_eq (actions : List Action) (h : Separated m sessions places lists) :
    ∃ m' places' lists', m.run actions = some (m',
        (Session.runAll sessions actions).2.map fun (i, r) => (i, r.sight)) ∧
      Separated m' (Session.runAll sessions actions).1 places' lists' := by
  induction actions generalizing m sessions places lists with
  | nil => exact ⟨m, places, lists, rfl, h⟩
  | cons action actions ih =>
    cases action with
    | create settings =>
      exact ih (h.create settings)
    | call i c =>
      rw [Memory.run, Session.runAll]
      cases hi : sessions[i]? with
      | none =>
        have hge : sessions.length ≤ i := List.getElem?_eq_none_iff.mp hi
        rw [if_neg (by rw [h.count]; omega)]
        exact ih h
      | some s =>
        have hlt : i < sessions.length := (List.getElem?_eq_some_iff.mp hi).1
        obtain ⟨m₁, lists₁, hcall, hview, h₁⟩ := h.call hi c
        obtain ⟨m', places', lists', hrun, h'⟩ := ih h₁
        rw [if_pos (by rw [h.count]; exact hlt)]
        refine ⟨m', places', lists', ?_, h'⟩
        simp only [hcall, hview, hrun, Option.bind_eq_bind, Option.bind_some]
        rfl

-- the second session gets none of the keys of the first, though they have the same settings
example :
    let actions := [.create .standard, .create .standard, .call 0 (.press "1"), .call 1 .equals,
      .call 0 .equals, .call 1 (.press "x"), .call 1 (.press "2"), .call 0 .clear]
    (empty.run actions).map (fun (_, trace) => trace.map fun (i, shown) => (i, shown.view.tokens)) =
      some [(0, ["1"]), (1, []), (0, ["1"]), (1, []), (1, ["2"]), (0, [])] := by
  decide +kernel

end Memory

theorem Session.runAll_create (sessions : List Session) (settings : List Settings)
    (actions : List Action) :
    runAll sessions (settings.map .create ++ actions) =
      runAll (sessions ++ settings.map start) actions := by
  induction settings generalizing sessions with
  | nil => simp
  | cons first settings ih =>
    rw [List.map_cons, List.cons_append, runAll, ih]
    simp

/-- Sessions that are all made first show their reactions. -/
theorem Memory.run_reactions (settings : List Settings) (calls : List (Nat × Call)) :
    ∃ m trace,
      empty.run (settings.map .create ++ calls.map fun (i, c) => .call i c) = some (m, trace) ∧
      trace.map Prod.snd =
        (reactions (settings.map Session.start) calls).map Reaction.sight := by
  obtain ⟨m, places, lists, hrun, -⟩ :=
    run_eq (settings.map .create ++ calls.map fun (i, c) => .call i c)
      (separated_empty (fun _ => ⟨0, 0⟩) fun _ => 0)
  refine ⟨m, _, hrun, ?_⟩
  rw [Session.runAll_create, List.nil_append, Session.reactions_eq]
  simp [Function.comp_def]

/-! ### No influence -/

theorem run_own (actions : List Action) : ∃ m trace, Memory.empty.run actions = some (m, trace) ∧
    ∀ i settings, (created actions)[i]? = some settings →
      seen i trace = ((Session.start settings).reactAll (ownCalls i 0 actions)).map Reaction.sight ∧
        m.view i = some ((Session.start settings).run (ownCalls i 0 actions)).view := by
  obtain ⟨m, places, lists, hrun, h⟩ :=
    Memory.run_eq actions (Memory.separated_empty (fun _ => ⟨0, 0⟩) fun _ => 0)
  refine ⟨m, _, hrun, fun i settings hi => ?_⟩
  have hcreated : ([] ++ (created actions).map Session.start)[i]? = some (.start settings) := by
    simp [hi]
  obtain ⟨hlast, hseen⟩ := Session.runAll_own hcreated
  refine ⟨?_, (h.represents i _ hlast).view_eq⟩
  rw [List.length_nil] at hseen
  rw [← hseen]
  simp [seen, List.filter_map, Function.comp_def]

/-- A lone session. -/
theorem ownCalls_alone (calls : List Call) :
    ownCalls 0 1 (calls.map (.call 0)) = calls ∧ created (calls.map (.call 0)) = [] := by
  induction calls with
  | nil => exact ⟨rfl, rfl⟩
  | cons c calls ih => exact ⟨by simp [ownCalls, ih.1], ih.2⟩

/-- **Sessions do not influence each other.**  Whatever sessions are made and called in whatever
order, the program goes on.  What is seen of a session at its own calls (the display or the refusal
that a call returns, the display, the tokens, whether the next number key starts over, and the
outcome of the latest evaluation), and what can be seen of it at the end, is what its own calls
alone make of a new session with its settings: of a value, and of the only object of a program that
makes no other session. -/
theorem sessions_independent (actions : List Action) :
    ∃ m trace, Memory.empty.run actions = some (m, trace) ∧
      ∀ i settings, (created actions)[i]? = some settings →
        let own := ownCalls i 0 actions
        seen i trace = ((Session.start settings).reactAll own).map Reaction.sight ∧
          m.view i = some ((Session.start settings).run own).view ∧
          ∃ alone shown,
            Memory.empty.run (.create settings :: own.map (.call 0)) = some (alone, shown) ∧
            seen 0 shown = seen i trace ∧ alone.view 0 = m.view i := by
  obtain ⟨m, trace, hrun, hown⟩ := run_own actions
  refine ⟨m, trace, hrun, ?_⟩
  intro i settings hi own
  obtain ⟨hseen, hview⟩ := hown i settings hi
  obtain ⟨alone, shown, hrun', hown'⟩ := run_own (.create settings :: own.map (.call 0))
  obtain ⟨hcalls, hcreated⟩ := ownCalls_alone own
  obtain ⟨hseen', hview'⟩ := hown' 0 settings (by rw [created, hcreated]; rfl)
  rw [ownCalls, hcalls] at hseen' hview'
  exact ⟨hseen, hview, alone, shown, hrun', hseen'.trans hseen.symm, hview'.trans hview.symm⟩

end Keypad
