import Anviq.Control.Steps

/-! # The order of the verdict cache

A lookup in the cache is a use of the entry it finds or adds. In every run the entries stand
in the order of their last uses, so that what is evicted has gone unused the longest.
-/

namespace Control

variable {Call : Type} [DecidableEq Call] {settings : Settings} {requests : Call → ChangeRequest}
  {service next : ControlService Call} {event : Event Call} {events : List (Event Call)}
  {hashes older newer : HashPair}

/-! ## Uses -/

/-- The event looks the change up, which adds its entry or moves it to the end. -/
def Uses (service : ControlService Call) (event : Event Call) (hashes : HashPair) : Prop :=
  ∃ call, event = .turn call ∧ service.stage call = .unapproved hashes

omit [DecidableEq Call] in
/-- A turn uses the change its call has not found approved. -/
theorem uses_turn {call : Call} (at' : service.stage call = .unapproved hashes) :
    Uses service (.turn call) older ↔ older = hashes := by
  constructor
  · rintro ⟨mover, same, at''⟩
    cases same
    rw [at'] at at''
    cases at''
    rfl
  · rintro rfl
    exact ⟨call, rfl, at'⟩

omit [DecidableEq Call] in
/-- A turn of a call that is elsewhere uses nothing. -/
theorem not_uses_turn {call : Call} {stage : Stage} (at' : service.stage call = stage)
    (elsewhere : ∀ hashes, stage ≠ .unapproved hashes) : ¬ Uses service (.turn call) hashes := by
  rintro ⟨mover, same, at''⟩
  cases same
  exact elsewhere hashes (at'.symm.trans at'')

/-- In the course of these events `newer` was used, and from then on `older` was not. -/
def UsedSince (settings : Settings) (requests : Call → ChangeRequest) (events : List (Event Call))
    (older newer : HashPair) : Prop :=
  ∃ before event after moment, events = before ++ event :: after ∧
    (controlMachine settings requests).Run before moment ∧ Uses moment event newer ∧
    ∀ front other back instant, event :: after = front ++ other :: back →
      (controlMachine settings requests).Run (before ++ front) instant → ¬ Uses instant other older

/-- A use of another change than `newer` is the last one. -/
theorem UsedSince.now (run : (controlMachine settings requests).Run events service)
    (uses : Uses service event newer) (unused : ¬ Uses service event older) :
    UsedSince settings requests (events ++ [event]) older newer := by
  refine ⟨events, event, [], service, rfl, run, uses, ?_⟩
  intro front other back instant split reached
  cases front with
  | nil =>
      cases split
      rw [List.append_nil] at reached
      obtain rfl : instant = service := run_deterministic reached run
      exact unused
  | cons _ front => simp at split

/-- An event that does not use `older` changes nothing about it. -/
theorem UsedSince.later (used : UsedSince settings requests events older newer)
    (run : (controlMachine settings requests).Run events service)
    (unused : ¬ Uses service event older) :
    UsedSince settings requests (events ++ [event]) older newer := by
  obtain ⟨before, user, after, moment, rfl, reached, uses, since⟩ := used
  refine ⟨before, user, after ++ [event], moment, by simp, reached, uses, ?_⟩
  intro front other back instant split reached'
  rw [← List.cons_append] at split
  obtain ⟨-, same, rfl⟩ | ⟨between, -, earlier⟩ := concat_eq_append_cons.mp split
  · rw [← same] at reached'
    obtain rfl : instant = service := run_deterministic reached' run
    exact unused
  · exact since front other between instant earlier reached'

/-! ## The order -/

/-- The entries stand in the order of their last uses. -/
def Ordered (settings : Settings) (requests : Call → ChangeRequest) (events : List (Event Call))
    (items : List (HashPair × Nat)) : Prop :=
  items.Pairwise fun older newer => UsedSince settings requests events older.1 newer.1

/-- Entries stay in order when an event uses none of them. -/
theorem Ordered.later {items : List (HashPair × Nat)}
    (ordered : Ordered settings requests events items)
    (run : (controlMachine settings requests).Run events service)
    (unused : ∀ item ∈ items, ¬ Uses service event item.1) :
    Ordered settings requests (events ++ [event]) items :=
  ordered.imp_of_mem fun among _ used => used.later run (unused _ among)

/-- The entry an event uses goes behind all the others. -/
theorem Ordered.use {items : List (HashPair × Nat)} {call : Call}
    (ordered : Ordered settings requests events items)
    (run : (controlMachine settings requests).Run events service)
    (at' : service.stage call = .unapproved hashes) (apart : ∀ item ∈ items, item.1 ≠ hashes)
    (future : Nat) :
    Ordered settings requests (events ++ [.turn call]) (items ++ [(hashes, future)]) := by
  have unused : ∀ item ∈ items, ¬ Uses service (.turn call) item.1 := by
    intro item among uses
    exact apart item among ((uses_turn at').mp uses)
  refine List.pairwise_append.mpr ⟨ordered.later run unused, List.pairwise_singleton _ _, ?_⟩
  intro item among last isLast
  rw [List.mem_singleton.mp isLast]
  exact .now run ((uses_turn at').mpr rfl) (unused item among)

/-- The cache before an eviction: a new entry stands behind all the others. -/
theorem Ordered.add {call : Call} (ordered : Ordered settings requests events service.cache.items)
    (run : (controlMachine settings requests).Run events service)
    (at' : service.stage call = .unapproved hashes) (missing : service.cache.get? hashes = none)
    (future : Nat) :
    Ordered settings requests (events ++ [.turn call])
      (service.cache.assign hashes future).items := by
  have absent : hashes ∉ service.cache.keys := Dict.get?_eq_none.mp missing
  rw [Dict.assign_of_notMem absent]
  refine ordered.use run at' ?_ future
  intro item among same
  exact absent (same ▸ List.mem_map_of_mem among)

theorem Ordered.step (ordered : Ordered settings requests events service.cache.items)
    (run : (controlMachine settings requests).Run events service)
    (handled : service.handle settings requests event = some next) :
    Ordered settings requests (events ++ [event]) next.cache.items := by
  have idle : ∀ {call : Call} {stage : Stage}, service.stage call = stage →
      (∀ hashes, stage ≠ .unapproved hashes) →
        Ordered settings requests (events ++ [.turn call]) service.cache.items :=
    fun at' elsewhere => ordered.later run fun _ _ => not_uses_turn at' elsewhere
  cases handle_move handled with
  | owns _ at' missing _ =>
      exact (ordered.add run at' missing _).sublist (evictItems_suffix _ _).sublist
  | breaks _ at' missing _ =>
      exact (ordered.add run at' missing _).sublist (evictItems_suffix _ _).sublist
  | @joins call hashes future _ at' found =>
      have items : (service.cache.moveToEnd hashes).items =
          (service.cache.erase hashes).items ++ [(hashes, future)] := by
        rw [Dict.moveToEnd, found, Dict.push_items]
      change Ordered settings requests _ (service.cache.moveToEnd hashes).items
      rw [items, Dict.erase_items]
      refine Ordered.use (ordered.sublist List.filter_sublist) run at' ?_ future
      intro item among
      exact of_decide_eq_true (List.mem_filter.mp among).2
  | @fails _ call hashes future error at' about =>
      refine List.Pairwise.sublist
        (show List.Sublist (service.cache.erase hashes).items service.cache.items from
          List.filter_sublist) ?_
      obtain rfl | rfl := about
      · exact idle at' (by simp)
      · exact ordered.later run (by rintro _ _ ⟨_, absurdity, -⟩; cases absurdity)
  | refused _ => exact ordered.later run (by rintro _ _ ⟨_, absurdity, -⟩; cases absurdity)
  | approves _ => exact ordered.later run (by rintro _ _ ⟨_, absurdity, -⟩; cases absurdity)
  | unhashed at' _ => exact idle at' (by simp)
  | approvedFirst _ at' _ _ => exact idle at' (by simp)
  | unapproved _ at' _ _ => exact idle at' (by simp)
  | succeeds at' _ => exact idle at' (by simp)
  | reports at' => exact idle at' (by simp)
  | shares at' _ => exact idle at' (by simp)
  | sharesError at' _ => exact idle at' (by simp)
  | approvedSince _ at' _ => exact idle at' (by simp)
  | answers at' _ => exact idle at' (by simp)

/-- In every run the entries stand in the order of their last uses. -/
theorem run_ordered (run : (controlMachine settings requests).Run events service) :
    Ordered settings requests events service.cache.items := by
  induction run with
  | start begins =>
      rw [begins]
      exact .nil
  | concat run handled ih => exact ih.step run handled

/-! ## Evictions -/

/-- A cache that has enough entries keeps enough. -/
theorem evictItems_full {cacheSize : Int} {items : List (HashPair × Nat)}
    (full : cacheSize ≤ items.length) : cacheSize ≤ (evictItems cacheSize items).length := by
  induction items with
  | nil => exact full
  | cons item rest ih =>
      rw [evictItems]
      split
      · next above =>
          rw [List.length_cons] at above
          exact ih (by omega)
      · exact full

/-- Something is evicted only where the cache has no room for it, and only from the front. -/
theorem evict_front {cacheSize : Int} {cache : Dict HashPair Nat} {item : HashPair × Nat}
    {before : HashPair × Nat → HashPair × Nat → Prop} (ordered : cache.items.Pairwise before)
    (among : item ∈ cache.items) (gone : item ∉ (evict cacheSize cache).items) :
    cacheSize ≤ (evict cacheSize cache).size ∧
      ∀ kept ∈ (evict cacheSize cache).items, before item kept := by
  refine ⟨?_, ?_⟩
  · by_cases full : cacheSize ≤ cache.items.length
    · exact evictItems_full full
    · refine absurd ?_ gone
      change item ∈ evictItems cacheSize cache.items
      cases items : cache.items with
      | nil =>
          rw [items] at among
          cases among
      | cons first rest =>
          rw [items] at full among
          rw [evictItems, if_neg (by omega)]
          exact among
  · obtain ⟨front, parts⟩ := evictItems_suffix cacheSize cache.items
    rw [← parts] at ordered among
    intro kept stays
    exact (List.pairwise_append.mp ordered).2.2 item
      ((List.mem_append.mp among).resolve_right gone) kept stays

end Control
