import GestureActions.Proofs.System.Telling

/-! # What comes of refused requests

A refused request ends whatever it is part of. What was asked before it has taken effect and
what would have come after it is never asked, so that a party has always asked some first
part of what it set out to ask. A member that is told a message stays what it was, is lost,
or becomes what its answer makes of it, by where its answer was cut short.
-/
namespace GestureActions

open Request

variable {ε σ : Type}

/-- How an answer ends: the state that whoever gives it is left with, and what has been asked
by then in its own name, `g` being what an effect asks in that name. -/
inductive Reaction.Ends (g : ε → List Request) (r : Reaction ε σ) (s : σ) : σ → List Request → Prop
  | halted {ds : List Request} (hr : r.before ≠ []) (hd : ds <+: r.before) : r.Ends g s s ds
  | lost {ds : List Request} (hr : r.during ≠ []) (hd : ds <+: r.during) : r.Ends g s r.lost (r.before ++ ds)
  | given {ds : List Request} (hd : ds <+: r.after.flatMap g) : r.Ends g s r.next (r.before ++ r.during ++ ds)

theorem Reaction.Ends.subset {g : ε → List Request} {r : Reaction ε σ} {s s' : σ} {qs : List Request}
    (h : r.Ends g s s' qs) : ∀ q ∈ qs, q ∈ r.before ++ r.during ++ r.after.flatMap g := by
  intro q hq
  cases h with
  | halted hr hd => exact List.mem_append_left _ (List.mem_append_left _ (hd.subset hq))
  | lost hr hd =>
    refine List.mem_append_left _ ?_
    rcases List.mem_append.mp hq with hq | hq
    · exact List.mem_append_left _ hq
    · exact List.mem_append_right _ (hd.subset hq)
  | given hd =>
    rcases List.mem_append.mp hq with hq | hq
    · exact List.mem_append_left _ hq
    · exact List.mem_append_right _ (hd.subset hq)

theorem Member.role_of_ends {k k' : Member} {now : Instant} {m : Message} {qs : List Request}
    (h : (k.react now m).Ends Effect.requests k k' qs) : k'.role = k.role := by
  cases h with
  | halted hr hd => rfl
  | lost hr hd => exact k.role_lost now m
  | given hd => exact k.role_react now m

namespace World

variable {p : Party} {w : World}

/-- A party that set out to ask some requests has asked some first part of them, and all if
it came to the end. -/
structure Tried (p : Party) (qs ds : List Request) (w : World) (o : Outcome World) : Prop where
  part : ds <+: qs
  all : ∀ v, o = .done v → ds = qs
  moved : Moved p ds w o.state
  members : SameMembers w o.state

theorem tried_refused (p : Party) (qs : List Request) (c : Collaborator) (w : World) :
    Tried p qs [] w (.refused c w) where
  part := List.nil_prefix
  all v h := by cases h
  moved := Moved.refl p w
  members _ := rfl

theorem tried_aside {o : Outcome World} (h : Moved p [] w o.state) (hm : SameMembers w o.state) :
    Tried p [] [] w o where
  part := List.prefix_rfl
  all _ _ := rfl
  moved := h
  members := hm

/-- The world in which a request of a party is granted. -/
def granted (p : Party) (q : Request) (w : World) : World :=
  match q with
  | .register s => { w.logged p (.register s) with registry := w.registry.register s p }
  | .unregister s => { w.logged p (.unregister s) with registry := w.registry.unregister s p }
  | .vote c v => w.voted p c v
  | .power c => w.logged p (.power c)
  | .readClock => w.logged p .readClock
  | .output o => w.logged p (.output o)
  | .act => w.logged p .act
  | .record name n => w.logged p (.record name n)

theorem perform_never_eq (p : Party) (q : Request) (w : World) : w.perform .never p q = .done (w.granted p q) := by
  cases q with
  | vote c v => exact perform_vote_never p c v w
  | _ => rfl

theorem adds_granted (p : Party) (q : Request) (w : World) :
    w.Adds (fun e => e.party = p ∧ q.Yields e.call) (w.granted p q) := by
  have hlogged : ∀ c, q.call? = some c → w.Adds (fun e => e.party = p ∧ q.Yields e.call) (w.logged p c) := by
    intro c hc
    refine ⟨[⟨p, c⟩], rfl, fun e he => ?_⟩
    rw [List.mem_singleton.mp he]
    exact ⟨rfl, Or.inl hc⟩
  cases q with
  | register s => exact (hlogged (.register s) rfl).trans (adds_of_log rfl)
  | unregister s => exact (hlogged (.unregister s) rfl).trans (adds_of_log rfl)
  | vote c v =>
    refine ⟨_, rfl, fun e he => ?_⟩
    obtain ⟨t, _, rfl⟩ := List.mem_map.mp he
    exact ⟨rfl, Or.inr ⟨rfl, rfl⟩⟩
  | _ => exact hlogged _ rfl

/-- A request is granted, or refused before it takes effect, except that a vote counts even if
the setting it brings about is refused. -/
theorem perform_cases (refuses : Refusals) (p : Party) (q : Request) (w : World) :
    w.perform refuses p q = .done (w.granted p q) ∨ (∃ c, w.perform refuses p q = .refused c w) ∨
    ∃ c v d, q = .vote c v ∧ w.perform refuses p q = .refused d { w with poll := (w.poll.cast c v).1 } := by
  have hmake : ∀ (c : Call) (u : World),
      u.make refuses p c = u.make .never p c ∨ ∃ d, u.make refuses p c = .refused d u := by
    intro c u
    unfold make
    split
    · exact Or.inr ⟨_, rfl⟩
    · exact Or.inl rfl
  rw [← perform_never_eq]
  cases q with
  | register s =>
    rcases hmake (.register s) w with h | ⟨d, h⟩
    · exact Or.inl (by rw [perform, perform, h])
    · exact Or.inr (Or.inl ⟨d, by rw [perform, h]; rfl⟩)
  | unregister s =>
    rcases hmake (.unregister s) w with h | ⟨d, h⟩
    · exact Or.inl (by rw [perform, perform, h])
    · exact Or.inr (Or.inl ⟨d, by rw [perform, h]; rfl⟩)
  | vote c v =>
    simp only [perform]
    cases (w.poll.cast c v).2 with
    | none => exact Or.inl rfl
    | some s =>
      rcases hmake (.configure s) { w with poll := (w.poll.cast c v).1 } with h | ⟨d, h⟩
      · exact Or.inl h
      · exact Or.inr (Or.inr ⟨c, v, d, rfl, h⟩)
  | _ => exact (hmake _ w).imp_right Or.inl

theorem perform_tried (refuses : Refusals) (p : Party) (q : Request) (w : World) :
    ∃ ds, Tried p [q] ds w (w.perform refuses p q) := by
  rcases perform_cases refuses p q w with h | ⟨c, h⟩ | ⟨c, v, d, rfl, h⟩
  · obtain ⟨v, hv, hw, hm⟩ := perform_never p q w
    rw [h, ← perform_never_eq, hv]
    exact ⟨[q], List.prefix_rfl, fun _ _ => rfl, hw.toMoved, hm⟩
  · rw [h]
    exact ⟨[], tried_refused p [q] c w⟩
  · have hl : w.log = w.log ++ ([] : List Setting).map fun s => ⟨p, .configure s⟩ := (List.append_nil _).symm
    rw [h]
    exact ⟨[.vote c v], List.prefix_rfl, fun _ h => (by cases h), moved_vote p c v rfl rfl rfl rfl rfl hl,
      sameMembers_of_parts rfl rfl rfl⟩

theorem each_tried {α : Type} {f : α → World → Outcome World} {g : α → List Request} {l : List α}
    (h : ∀ a ∈ l, ∀ w, ∃ ds, Tried p (g a) ds w (f a w)) (w : World) :
    ∃ ds, Tried p (l.flatMap g) ds w (Outcome.each f l w) := by
  induction l generalizing w with
  | nil => exact ⟨[], tried_aside (Moved.refl p w) fun _ => rfl⟩
  | cons a r ih =>
    obtain ⟨ds, hd⟩ := h a List.mem_cons_self w
    rw [List.flatMap_cons, Outcome.each]
    cases hf : f a w with
    | refused c u =>
      rw [hf] at hd
      exact ⟨ds, hd.part.trans (List.prefix_append ..), fun _ h => (by cases h), hd.moved, hd.members⟩
    | done u =>
      rw [hf] at hd
      obtain ⟨es, he⟩ := ih (fun b hb => h b (List.mem_cons_of_mem a hb)) u
      have hall : ds = g a := hd.all u rfl
      refine ⟨ds ++ es, ?_, fun v hv => ?_, hd.moved.trans he.moved, hd.members.trans he.members⟩
      · rw [hall]
        exact (List.prefix_append_right_inj (g a)).mpr he.part
      · rw [hall, he.all v hv]

theorem performAll_tried (refuses : Refusals) (p : Party) (qs : List Request) (w : World) :
    ∃ ds, Tried p qs ds w (w.performAll refuses p qs) := by
  have h := each_tried (l := qs) (fun q _ => perform_tried refuses p q) w
  rwa [List.flatMap_singleton'] at h

/-- What is refused was to be asked. -/
theorem ne_nil_of_refused {refuses : Refusals} {qs : List Request} {c : Collaborator} {v : World}
    (h : w.performAll refuses p qs = .refused c v) : qs ≠ [] := by
  rintro rfl
  cases h

/-- A reaction that is carried out ends somewhere; `put` is how its state is kept. -/
theorem carryOut_ends (refuses : Refusals) (put : σ → World → World) (eff : ε → World → Outcome World)
    {g : ε → List Request} {r : Reaction ε σ} (hput : ∀ s u, Moved p [] u (put s u))
    (heff : ∀ e ∈ r.after, ∀ u, ∃ ds, Tried p (g e) ds u (eff e u)) (s : σ) (w : World) :
    ∃ s' qs u, r.Ends g s s' qs ∧ Moved p qs w (carryOut refuses p put eff r w).state ∧ SameMembers w u ∧
      (s' = s ∧ SameMembers u (carryOut refuses p put eff r w).state ∨
        SameMembers (put s' u) (carryOut refuses p put eff r w).state) := by
  obtain ⟨ds, hd⟩ := performAll_tried refuses p r.before w
  rw [carryOut]
  cases hb : w.performAll refuses p r.before with
  | refused c u =>
    rw [hb] at hd
    exact ⟨s, ds, u, .halted (ne_nil_of_refused hb) hd.part, hd.moved, hd.members, Or.inl ⟨rfl, fun _ => rfl⟩⟩
  | done u =>
    rw [hb] at hd
    obtain rfl := hd.all u rfl
    obtain ⟨es, he⟩ := performAll_tried refuses p r.during u
    rw [Outcome.andThen]
    cases hu : u.performAll refuses p r.during with
    | refused c t =>
      rw [hu] at he
      have hmoved := (hd.moved.trans he.moved).trans (hput r.lost t)
      rw [List.append_nil] at hmoved
      exact ⟨r.lost, _, t, .lost (ne_nil_of_refused hu) he.part, hmoved, hd.members.trans he.members,
        Or.inr fun _ => rfl⟩
    | done t =>
      rw [hu] at he
      obtain rfl := he.all t rfl
      obtain ⟨fs, hf⟩ := each_tried heff (put r.next t)
      have hmoved := ((hd.moved.trans he.moved).trans (hput r.next t)).trans hf.moved
      rw [List.append_nil] at hmoved
      exact ⟨r.next, _, t, .given hf.part, hmoved, hd.members.trans he.members, Or.inr hf.members⟩

theorem carryOutDoze_tried (refuses : Refusals) (p : Party) {r : Reaction Request Doze}
    (hq : ∀ q ∈ r.before ++ r.during ++ r.after, q.IsQuiet .doze) (w : World) :
    Tried p [] [] w (w.carryOutDoze refuses r) := by
  have hput : ∀ d u, Moved .doze [] u (putDoze d u) := fun d u => moved_nil .doze rfl rfl rfl rfl rfl rfl
  have hseats : ∀ d u, SameMembers u (putDoze d u) := fun d u => sameMembers_of_parts rfl rfl rfl
  obtain ⟨d, qs, u, hends, hmoved, hsame, hstate⟩ := carryOut_ends refuses putDoze
    (perform refuses .doze) (r := r) hput (fun q _ => perform_tried refuses .doze q) w.doze w
  have hquiet : ∀ q ∈ qs, q.IsQuiet .doze := by
    intro q hm
    have hq' := hends.subset q hm
    rw [List.flatMap_singleton'] at hq'
    exact hq q hq'
  refine tried_aside (hmoved.aside (fun h => h.1 rfl) hquiet p) ?_
  rcases hstate with ⟨_, hstate⟩ | hstate
  · exact hsame.trans hstate
  · exact (hsame.trans (hseats d u)).trans hstate

theorem effect_tried (refuses : Refusals) (p : Party) (e : Effect) (w : World) :
    ∃ ds, Tried p e.requests ds w (w.effect refuses p e) := by
  have hstill : Tried p [] [] w (.done w) := tried_aside (Moved.refl p w) fun _ => rfl
  cases e with
  | ask q => exact perform_tried refuses p q w
  | fire s =>
    cases s with
    | doze => exact ⟨[], carryOutDoze_tried refuses p (Doze.quiet_fire _ _ _) w⟩
    | flashlight =>
      obtain ⟨ds, hd⟩ := performAll_tried refuses .flashlight w.flashlight.fire w
      have hquiet : ∀ q ∈ ds, q.IsQuiet .flashlight := fun q hq => w.flashlight.quiet_fire q (hd.part.subset hq)
      exact ⟨[], tried_aside (hd.moved.aside (fun h => h.2 rfl) hquiet p) hd.members⟩
    | counter => exact perform_tried refuses p .act w
  | inform s n =>
    cases s with
    | doze =>
      cases n with
      | screen on => exact ⟨[], carryOutDoze_tried refuses p (Doze.quiet_screen _ _ _) w⟩
      | preference q v => exact ⟨[], hstill⟩
    | flashlight =>
      cases n with
      | screen on => exact ⟨[], hstill⟩
      | preference q v =>
        exact ⟨[], tried_aside (moved_nil p rfl rfl rfl rfl rfl rfl) (sameMembers_of_parts rfl rfl rfl)⟩
    | counter => exact ⟨[], hstill⟩

/-- A member that is told a message has asked what its answer says until it was cut short, if
it was; the others are as they were. -/
theorem tell_ends {k : Member} (hk : w.member? p = some k) (refuses : Refusals) (m : Message) :
    ∃ k' qs, (k.react w.now m).Ends Effect.requests k k' qs ∧ Moved p qs w (w.tell refuses m p).state ∧
      ∀ q, (w.tell refuses m p).state.member? q = if q = p then some k' else w.member? q := by
  have hput : ∀ l u, Moved p [] u (seat p l u) := fun l u => (worked_seat p p l u).toMoved
  obtain ⟨k', qs, u, hends, hmoved, hsame, hstate⟩ := carryOut_ends refuses (seat p)
    (effect refuses p) (r := k.react w.now m) hput (fun e _ => effect_tried refuses p e) k w
  rw [tell, hk]
  refine ⟨k', qs, hends, hmoved, fun q => ?_⟩
  rcases hstate with ⟨rfl, hstate⟩ | hstate
  · rw [hstate, hsame]
    split
    · rename_i hq
      rw [hq, hk]
    · rfl
  · rw [hstate]
    exact member?_seat hk (Member.role_of_ends hends) hsame q

end World

end GestureActions
