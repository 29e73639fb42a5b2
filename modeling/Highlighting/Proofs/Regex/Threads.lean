/-
  Highlighting/Proofs/Regex/Threads.lean
  ======================================
  **How threads spread.**

  Between two characters an automaton works off an agenda of threads, and
  closes each state for all threads behind the first that reaches it.
  `Spreads` says this without fuel: an agenda, with a set of closed states in
  front of it, comes to a list of waiting threads and a larger closed set.

  Main facts:

    * the fuel of a run always suffices (`spreads_spread`);
    * the states closed by the first part of an agenda are the only thing that
      the rest of it depends on (`Spreads.exists_of_append`);
    * the states closed in the end are closed under going on, and those where
      a thread waits have one waiting there (`Spreads.isSettled`);
    * threads in settled states may be put among those of the rest: this only
      adds threads that wait like some in front of them (`Spreads.padded`).
-/
import Mathlib.Data.Finset.Card
import Mathlib.Data.Finset.Range
import Highlighting.Regex.Matcher

namespace Highlighting

/-! ### Padded lists -/

/-- The second list is the first one with further members put in, for all of which `P` holds. -/
inductive Padded {α : Type} (P : α → Prop) : List α → List α → Prop
  | nil : Padded P [] []
  | both (x : α) {xs ys : List α} (h : Padded P xs ys) : Padded P (x :: xs) (x :: ys)
  | pad {x : α} {xs ys : List α} (hx : P x) (h : Padded P xs ys) : Padded P xs (x :: ys)

namespace Padded

variable {α β : Type} {P : α → Prop} {xs ys : List α}

theorem refl (P : α → Prop) (xs : List α) : Padded P xs xs := by
  induction xs with
  | nil => exact .nil
  | cons x xs ih => exact .both x ih

theorem mono (h : Padded P xs ys) {Q : α → Prop} (hQ : ∀ x, P x → Q x) : Padded Q xs ys := by
  induction h with
  | nil => exact .nil
  | both x _ ih => exact .both x ih
  | pad hx _ ih => exact .pad (hQ _ hx) ih

theorem append (h : Padded P xs ys) {us vs : List α} (h' : Padded P us vs) :
    Padded P (xs ++ us) (ys ++ vs) := by
  induction h with
  | nil => exact h'
  | both x _ ih => exact .both x ih
  | pad hx _ ih => exact .pad hx ih

theorem pad_all (h : Padded P xs ys) {zs : List α} (hz : ∀ z ∈ zs, P z) :
    Padded P xs (zs ++ ys) := by
  induction zs with
  | nil => exact h
  | cons z zs ih =>
    have hrest : Padded P xs (zs ++ ys) := ih fun z' h' => hz z' (List.mem_cons_of_mem _ h')
    exact .pad (hz z List.mem_cons_self) hrest

/-- What is put in does not count for a search that it is no match of. -/
theorem find?_eq (h : Padded P xs ys) {p : α → Bool} (hp : ∀ x, P x → p x = false) :
    xs.find? p = ys.find? p := by
  induction h with
  | nil => rfl
  | both x _ ih => rw [List.find?_cons, List.find?_cons, ih]
  | pad hx _ ih => rw [List.find?_cons, hp _ hx, ih]

theorem takeWhile (h : Padded P xs ys) {p : α → Bool} (hp : ∀ x, P x → p x = true) :
    Padded P (xs.takeWhile p) (ys.takeWhile p) := by
  induction h with
  | nil => exact .nil
  | both x _ ih =>
    rw [List.takeWhile_cons, List.takeWhile_cons]
    split
    · exact .both x ih
    · exact .nil
  | pad hx _ ih =>
    rw [List.takeWhile_cons, if_pos (hp _ hx)]
    exact .pad hx ih

theorem filterMap (h : Padded P xs ys) {f : α → Option β} {Q : β → Prop}
    (hf : ∀ x y, P x → f x = some y → Q y) : Padded Q (xs.filterMap f) (ys.filterMap f) := by
  induction h with
  | nil => exact .nil
  | both x _ ih =>
    rw [List.filterMap_cons, List.filterMap_cons]
    cases f x with
    | none => exact ih
    | some y => exact .both y ih
  | pad hx _ ih =>
    rw [List.filterMap_cons]
    split
    · exact ih
    · next y hy => exact .pad (hf _ y hx hy) ih

end Padded

namespace Automaton

variable {a : Automaton} {text : Source} {pos fuel q r seen seen' : Nat} {t : Thread}
  {agenda : List Thread} {ws : List Waiting}

/-! ### States -/

/-- The states to go on to from a state without a character, the preferred one first. -/
def onward (a : Automaton) (text : Source) (pos q : Nat) : List Nat :=
  match a.states[q]? with
  | some (.split first second) => [first, second]
  | some (.check c next) => if c.holds text pos then [next] else []
  | _ => []

/-- The state as what a thread waits in, if it waits there. -/
def resting (a : Automaton) (q : Nat) : List AutomatonState :=
  match a.states[q]? with
  | some (.take s next) => [.take s next]
  | some .accept => [.accept]
  | _ => []

/-- Closes a state. -/
def close (seen q : Nat) : Nat := seen ||| (1 <<< q)

theorem testBit_close : (close seen q).testBit r = true ↔ seen.testBit r = true ∨ r = q := by
  rw [close, Nat.testBit_or, Bool.or_eq_true, Nat.testBit_shiftLeft, Bool.and_eq_true,
    decide_eq_true_eq]
  constructor
  · rintro (h | ⟨hle, h⟩)
    · exact .inl h
    · have hzero : r - q = 0 := by
        by_contra hne
        rw [Nat.testBit_one_eq_true_iff_self_eq_zero] at h
        omega
      exact .inr (by omega)
  · rintro (h | rfl)
    · exact .inl h
    · exact .inr (by simp)

theorem onward_of_size_le (h : a.states.size ≤ q) : a.onward text pos q = [] := by
  rw [onward, Array.getElem?_eq_none h]

theorem length_onward : (a.onward text pos q).length ≤ 2 := by
  rw [onward]
  split
  · simp
  · split <;> simp
  · simp

theorem spread_cons (fuel : Nat) (t : Thread) (agenda : List Thread) (seen : Nat) :
    a.spread text pos (fuel + 1) (t :: agenda) seen =
      if seen.testBit t.state then a.spread text pos fuel agenda seen
      else (a.resting t.state).map (⟨·, t.start⟩) ++
        a.spread text pos fuel ((a.onward text pos t.state).map (⟨·, t.start⟩) ++ agenda)
          (close seen t.state) := by
  rw [spread]
  split
  · rfl
  · rw [resting, onward, close]
    cases a.states[t.state]? with
    | none => rfl
    | some s =>
      cases s with
      | take _ _ => rfl
      | check c next =>
        cases h : c.holds text pos <;> simp [h]
      | split _ _ => rfl
      | accept => rfl

/-! ### Working off an agenda -/

/-- An agenda comes to a list of waiting threads.  `seen` are the states closed before, `seen'`
those closed in the end. -/
inductive Spreads (a : Automaton) (text : Source) (pos : Nat) :
    List Thread → Nat → List Waiting → Nat → Prop
  | done {seen : Nat} : Spreads a text pos [] seen [] seen
  | closed {t : Thread} {agenda : List Thread} {seen seen' : Nat} {ws : List Waiting}
      (hseen : seen.testBit t.state = true) (h : Spreads a text pos agenda seen ws seen') :
      Spreads a text pos (t :: agenda) seen ws seen'
  | goes {t : Thread} {agenda : List Thread} {seen seen' : Nat} {ws : List Waiting}
      (hseen : seen.testBit t.state = false)
      (h : Spreads a text pos ((a.onward text pos t.state).map (⟨·, t.start⟩) ++ agenda)
        (close seen t.state) ws seen') :
      Spreads a text pos (t :: agenda) seen ((a.resting t.state).map (⟨·, t.start⟩) ++ ws) seen'

/-- The number of states that are still open. -/
def room (a : Automaton) (seen : Nat) : Nat :=
  ((Finset.range a.states.size).filter fun q => seen.testBit q = false).card

theorem room_le : a.room seen ≤ a.states.size := by
  have h := Finset.card_filter_le (Finset.range a.states.size) fun q => seen.testBit q = false
  rwa [Finset.card_range] at h

theorem open_subset_of_close : (Finset.range a.states.size).filter
      (fun r => (close seen q).testBit r = false) ⊆
    (Finset.range a.states.size).filter fun r => seen.testBit r = false := by
  intro r hr
  rw [Finset.mem_filter] at hr ⊢
  refine ⟨hr.1, Bool.eq_false_iff.mpr fun hseen => ?_⟩
  exact Bool.eq_false_iff.mp hr.2 (testBit_close.mpr (.inl hseen))

theorem room_close_le : a.room (close seen q) ≤ a.room seen :=
  Finset.card_le_card open_subset_of_close

theorem room_close_lt (hq : q < a.states.size) (hseen : seen.testBit q = false) :
    a.room (close seen q) < a.room seen := by
  apply Finset.card_lt_card
  rw [Finset.ssubset_iff_of_subset open_subset_of_close]
  refine ⟨q, Finset.mem_filter.mpr ⟨Finset.mem_range.mpr hq, hseen⟩, fun hmem => ?_⟩
  exact Bool.eq_false_iff.mp (Finset.mem_filter.mp hmem).2 (testBit_close.mpr (.inr rfl))

/-- **The fuel of a run suffices**: each step takes a thread off the agenda, and one that puts
others there closes a state. -/
theorem spreads_spread (h : agenda.length + 2 * a.room seen < fuel) :
    ∃ seen', Spreads a text pos agenda seen (a.spread text pos fuel agenda seen) seen' := by
  induction fuel generalizing agenda seen with
  | zero => omega
  | succ fuel ih =>
    cases agenda with
    | nil => exact ⟨seen, .done⟩
    | cons t agenda =>
      rw [List.length_cons] at h
      rw [spread_cons]
      cases hseen : seen.testBit t.state with
      | true =>
        obtain ⟨seen', hrest⟩ : ∃ seen', Spreads a text pos agenda seen _ seen' := ih (by omega)
        exact ⟨seen', .closed hseen hrest⟩
      | false =>
        have hroom : (a.onward text pos t.state).length + 2 * a.room (close seen t.state) ≤
            2 * a.room seen := by
          rcases Nat.lt_or_ge t.state a.states.size with hlt | hge
          · have hless := room_close_lt hlt hseen
            have htwo : (a.onward text pos t.state).length ≤ 2 := length_onward
            omega
          · have hle : a.room (close seen t.state) ≤ a.room seen := room_close_le
            rw [onward_of_size_le hge, List.length_nil]
            omega
        have hfuel : ((a.onward text pos t.state).map (Thread.mk · t.start) ++ agenda).length +
            2 * a.room (close seen t.state) < fuel := by
          rw [List.length_append, List.length_map]
          omega
        obtain ⟨seen', hrest⟩ := ih hfuel
        exact ⟨seen', .goes hseen hrest⟩

namespace Spreads

variable {xs ys : List Thread}

/-- **An agenda is worked off part by part**, and only the closed states connect the parts. -/
theorem exists_of_append (h : Spreads a text pos (xs ++ ys) seen ws seen') :
    ∃ us vs between, ws = us ++ vs ∧ Spreads a text pos xs seen us between ∧
      Spreads a text pos ys between vs seen' := by
  generalize hall : xs ++ ys = all at h
  induction h generalizing xs with
  | done =>
    obtain ⟨rfl, rfl⟩ := List.append_eq_nil_iff.mp hall
    exact ⟨[], [], _, rfl, .done, .done⟩
  | @closed t agenda seen seen' ws hseen h ih =>
    cases xs with
    | nil =>
      rw [List.nil_append] at hall
      subst hall
      exact ⟨[], ws, seen, rfl, .done, .closed hseen h⟩
    | cons x xs =>
      obtain ⟨rfl, rfl⟩ := List.cons.inj hall
      obtain ⟨us, vs, between, hws, hxs, hys⟩ := ih rfl
      exact ⟨us, vs, between, hws, .closed hseen hxs, hys⟩
  | @goes t agenda seen seen' ws hseen h ih =>
    cases xs with
    | nil =>
      rw [List.nil_append] at hall
      subst hall
      exact ⟨[], _, seen, rfl, .done, .goes hseen h⟩
    | cons x xs =>
      obtain ⟨rfl, rfl⟩ := List.cons.inj hall
      obtain ⟨us, vs, between, hws, hxs, hys⟩ := ih (List.append_assoc _ _ _)
      refine ⟨_, vs, between, ?_, .goes hseen hxs, hys⟩
      rw [hws, List.append_assoc]

theorem exists_start (h : Spreads a text pos agenda seen ws seen') :
    ∀ w ∈ ws, ∃ t ∈ agenda, t.start = w.start := by
  induction h with
  | done =>
    intro w hw
    cases hw
  | closed _ _ ih =>
    intro w hw
    obtain ⟨t, ht, hstart⟩ := ih w hw
    exact ⟨t, List.mem_cons_of_mem _ ht, hstart⟩
  | @goes t agenda _ _ _ _ _ ih =>
    intro w hw
    rcases List.mem_append.mp hw with hw | hw
    · obtain ⟨s, -, rfl⟩ := List.mem_map.mp hw
      exact ⟨t, List.mem_cons_self, rfl⟩
    · obtain ⟨u, hu, hstart⟩ := ih w hw
      rcases List.mem_append.mp hu with hu | hu
      · obtain ⟨q, -, rfl⟩ := List.mem_map.mp hu
        exact ⟨t, List.mem_cons_self, hstart⟩
      · exact ⟨u, List.mem_cons_of_mem _ hu, hstart⟩

/-- States stay closed. -/
theorem testBit_mono (h : Spreads a text pos agenda seen ws seen') (hq : seen.testBit q = true) :
    seen'.testBit q = true := by
  induction h with
  | done => exact hq
  | closed _ _ ih => exact ih hq
  | goes _ _ ih => exact ih (testBit_close.mpr (.inl hq))

theorem testBit_of_mem (h : Spreads a text pos agenda seen ws seen') :
    ∀ t ∈ agenda, seen'.testBit t.state = true := by
  induction h with
  | done =>
    intro t ht
    cases ht
  | closed hseen h ih =>
    intro t ht
    rcases List.mem_cons.mp ht with rfl | ht
    · exact h.testBit_mono hseen
    · exact ih t ht
  | goes _ h ih =>
    intro t ht
    rcases List.mem_cons.mp ht with rfl | ht
    · exact h.testBit_mono (testBit_close.mpr (.inr rfl))
    · exact ih t (List.mem_append_right _ ht)

end Spreads

/-- Where a thread may go on from the states it finds closed ones, and where one waits there is
one among those that wait already. -/
structure Settled (a : Automaton) (text : Source) (pos : Nat) (ws : List Waiting)
    (q seen : Nat) : Prop where
  onward : ∀ r ∈ a.onward text pos q, seen.testBit r = true
  resting : ∀ s ∈ a.resting q, s ∈ ws.map (·.state)

theorem Spreads.isSettled (h : Spreads a text pos agenda seen ws seen')
    (hq : seen'.testBit q = true) (hopen : seen.testBit q = false) :
    Settled a text pos ws q seen' := by
  induction h with
  | done => rw [hopen] at hq; cases hq
  | closed _ _ ih => exact ih hq hopen
  | @goes t agenda seen seen' ws hseen h ih =>
    by_cases heq : q = t.state
    · subst heq
      constructor
      · intro r hr
        exact h.testBit_of_mem ⟨r, t.start⟩ (List.mem_append_left _ (List.mem_map.mpr ⟨r, hr, rfl⟩))
      · intro s hs
        rw [List.map_append, List.mem_append, List.map_map]
        exact .inl (List.mem_map.mpr ⟨s, hs, rfl⟩)
    · have hopen' : (close seen t.state).testBit q = false := by
        rw [Bool.eq_false_iff, ne_eq, testBit_close, hopen]
        simp [heq]
      obtain ⟨honward, hresting⟩ := ih hq hopen'
      refine ⟨honward, fun s hs => ?_⟩
      rw [List.map_append]
      exact List.mem_append_right _ (hresting s hs)

/-- **Threads in settled states change nothing behind them.**  `settled` are states closed in
front of the first agenda; the second may have further threads in these, and does not find them
closed.  It comes to the same, with further threads that wait as some did in front. -/
theorem Spreads.padded {settled seen₁ seen₂ seen₁' seen₂' : Nat} {front us vs : List Waiting}
    {xs ys : List Thread}
    (hsettled : ∀ q, settled.testBit q = true → Settled a text pos front q settled)
    (hxs : Spreads a text pos xs seen₁ us seen₁') (hys : Spreads a text pos ys seen₂ vs seen₂')
    (hpad : Padded (fun t => settled.testBit t.state = true) xs ys)
    (hseen : ∀ q, seen₁.testBit q = true ↔ seen₂.testBit q = true ∨ settled.testBit q = true) :
    Padded (fun w => w.state ∈ front.map (·.state)) us vs := by
  -- the second agenda goes through all that the first does
  induction hys generalizing xs us seen₁ seen₁' with
  | done =>
    cases hpad
    cases hxs
    exact .nil
  | @closed t ys seen₂ _ vs hclosed _ ih =>
    cases hpad with
    | both t hpad =>
      cases hxs with
      | closed _ hxs => exact ih hxs hpad hseen
      | goes hopen _ =>
        rw [(hseen t.state).mpr (.inl hclosed)] at hopen
        cases hopen
    | pad _ hpad => exact ih hxs hpad hseen
  | @goes t ys seen₂ _ vs hopen _ ih =>
    -- a thread in a settled state waits like one in front, or goes on to such states
    have hpadded : settled.testBit t.state = true → ∀ {xs us seen₁ seen₁'},
        Spreads a text pos xs seen₁ us seen₁' →
        Padded (fun t => settled.testBit t.state = true) xs ys →
        (∀ q, seen₁.testBit q = true ↔ seen₂.testBit q = true ∨ settled.testBit q = true) →
        Padded (fun w => w.state ∈ front.map (·.state)) us
          ((a.resting t.state).map (⟨·, t.start⟩) ++ vs) := by
      intro hin xs us seen₁ seen₁' hxs hpad hseen
      obtain ⟨honward, hresting⟩ := hsettled t.state hin
      have hrest : Padded (fun w => w.state ∈ front.map (·.state)) us vs := by
        refine ih hxs (hpad.pad_all ?_) fun q => ?_
        · intro u hu
          obtain ⟨q, hq, rfl⟩ := List.mem_map.mp hu
          exact honward q hq
        · rw [hseen q, testBit_close]
          constructor
          · rintro (h | h)
            · exact .inl (.inl h)
            · exact .inr h
          · rintro ((h | rfl) | h)
            · exact .inl h
            · exact .inr hin
            · exact .inr h
      refine hrest.pad_all ?_
      intro w hw
      obtain ⟨s, hs, rfl⟩ := List.mem_map.mp hw
      exact hresting s hs
    cases hpad with
    | both t hpad =>
      cases hxs with
      | closed hclosed hxs =>
        rcases (hseen t.state).mp hclosed with h | hin
        · rw [hopen] at h
          cases h
        · exact hpadded hin hxs hpad hseen
      | goes _ hxs =>
        refine (Padded.refl _ _).append (ih hxs ((Padded.refl _ _).append hpad) fun q => ?_)
        rw [testBit_close, testBit_close, hseen q]
        tauto
    | pad hin hpad => exact hpadded hin hxs hpad hseen

end Automaton

end Highlighting
