import Mathlib.Algebra.BigOperators.Group.List.Basic
import NeoRuntime.EventBus.Server

/-!
# What the registry holds

The two ways out of the registry are one removal (`removeFirst_cases`), and a removal takes exactly
one subscription out of the lists.  So the lists hold, up to order, the subscriptions that were
registered and have not left (`Sound.listed`); what an `Unsubscribe` picks is among them, hence
picked for the first time.
-/

namespace NeoRuntime.EventBus

open List

/-! ## Lists of subscriptions -/

section Lists

variable {pick : Subscriber → Bool} {subs rest : List Subscriber} {sub : Subscriber}

theorem perm_eraseP_of_find? (found : subs.find? pick = some sub) :
    subs ~ sub :: subs.eraseP pick := by
  obtain ⟨picked, before, after, rfl, passed⟩ := List.find?_eq_some_iff_append.mp found
  rw [List.eraseP_append_right _ (by simpa using passed), List.eraseP_cons_of_pos picked]
  exact perm_middle

theorem perm_filter_of_perm_cons (perm : subs ~ sub :: rest) (nodup : (subs.map (·.ref)).Nodup) :
    subs.filter (fun other => other.ref ≠ sub.ref) ~ rest := by
  have distinct := (perm.map (·.ref)).nodup_iff.mp nodup
  rw [map_cons, nodup_cons] at distinct
  have kept : rest.filter (fun other => other.ref ≠ sub.ref) = rest := by
    refine filter_eq_self.mpr fun other mem => ?_
    rw [decide_eq_true_eq]
    rintro same
    exact distinct.1 (mem_map.mpr ⟨other, mem, same⟩)
  have filtered := perm.filter (fun other => other.ref ≠ sub.ref)
  rwa [filter_cons_of_neg (by simp), kept] at filtered

end Lists

/-! ## The registry -/

namespace Server

variable {s : Server} {topic : String} {pick : Subscriber → Bool} {sub : Subscriber}

def listed (s : Server) : List Subscriber := (Dict.values s.subscribers).flatten

/-- No list is empty, and every subscription stands under its topic. -/
def Tidy (s : Server) : Prop :=
  ∀ topic subs, s.subscribers.lookup topic = some subs → subs ≠ [] ∧ ∀ sub ∈ subs, sub.topic = topic

theorem listed_perm_of_lookup {subs : List Subscriber}
    (found : s.subscribers.lookup topic = some subs) :
    s.listed ~ subs ++ (Dict.values (s.subscribers.erase topic)).flatten :=
  (Dict.values_perm_of_lookup found).flatten

theorem Tidy.lookup_isSome (tidy : s.Tidy) (mem : sub ∈ s.listed) :
    ∃ subs, s.subscribers.lookup sub.topic = some subs ∧ sub ∈ subs := by
  obtain ⟨_, value, mem⟩ := mem_flatten.mp mem
  obtain ⟨⟨topic, subs⟩, entry, rfl⟩ := mem_map.mp value
  have found := AList.mem_lookup_iff.mpr entry
  rw [(tidy topic subs found).2 sub mem]
  exact ⟨subs, found, mem⟩

theorem listed_register (s : Server) (sub : Subscriber) : (s.register sub).listed ~ sub :: s.listed := by
  have inserted : (s.register sub).listed =
      (s.subscribers.lookup sub.topic).getD [] ++ [sub] ++
        (Dict.values (s.subscribers.erase sub.topic)).flatten := by
    simp only [listed, register, Dict.values_insert, flatten_cons]
  rw [inserted, append_assoc, singleton_append]
  refine perm_middle.trans (Perm.cons sub ?_)
  cases found : s.subscribers.lookup sub.topic with
  | none => rw [Dict.values_erase_of_lookup found, Option.getD_none, nil_append, listed]
  | some subs => exact (listed_perm_of_lookup found).symm

theorem Tidy.register (tidy : s.Tidy) (sub : Subscriber) : (s.register sub).Tidy := by
  intro topic subs found
  by_cases same : topic = sub.topic
  · subst same
    obtain rfl : (s.subscribers.lookup sub.topic).getD [] ++ [sub] = subs := by
      simpa [Server.register] using found
    refine ⟨by simp, fun other mem => ?_⟩
    obtain old | rfl := mem_append.mp mem |>.imp_right mem_singleton.mp
    · cases before : s.subscribers.lookup sub.topic with
      | none => simp [before] at old
      | some subs => exact (tidy _ _ before).2 other (by simpa [before] using old)
    · rfl
  · exact tidy topic subs (by simpa [Server.register, AList.lookup_insert_ne same] using found)

/-- A removal changes nothing, or takes one subscription out. -/
theorem removeFirst_cases (tidy : s.Tidy) (topic : String) (pick : Subscriber → Bool) :
    (s.removeFirst topic pick = (s, none) ∧ ∀ sub ∈ s.listed, sub.topic = topic → pick sub = false) ∨
      ∃ server sub, s.removeFirst topic pick = (server, some sub) ∧ pick sub = true ∧
        s.listed ~ sub :: server.listed ∧ server.Tidy := by
  cases found : s.subscribers.lookup topic with
  | none =>
    refine .inl ⟨by simp only [removeFirst, found], fun sub mem here => ?_⟩
    obtain ⟨subs, there, -⟩ := tidy.lookup_isSome mem
    rw [here, found] at there
    cases there
  | some subs =>
    cases first : subs.find? pick with
    | none =>
      refine .inl ⟨by simp only [removeFirst, found, first], fun sub mem here => ?_⟩
      obtain ⟨subs', there, mem⟩ := tidy.lookup_isSome mem
      obtain rfl : subs = subs' := Option.some.inj (found.symm.trans (here ▸ there))
      simpa using find?_eq_none.mp first sub mem
    | some sub =>
      have perm := perm_eraseP_of_find? first
      refine .inr ⟨_, sub, by simp only [removeFirst, found, first]; rfl, find?_some first, ?_, ?_⟩
      · refine (listed_perm_of_lookup found).trans ((perm.append_right _).trans (Perm.cons sub ?_))
        by_cases last : subs.eraseP pick = []
        · simp only [listed, last, if_true, Dict.erase_insert, append_eq, nil_append, Perm.refl]
        · simp only [listed, last, if_false, Dict.values_insert, flatten_cons, append_eq, Perm.refl]
      · intro topic' subs' there
        by_cases last : subs.eraseP pick = []
        · simp only [last, if_true, Dict.erase_insert] at there
          have other : topic' ≠ topic := by
            rintro rfl
            simp at there
          exact tidy topic' subs' (by rwa [AList.lookup_erase_ne other] at there)
        · simp only [last, if_false] at there
          by_cases same : topic' = topic
          · subst same
            obtain rfl : subs.eraseP pick = subs' := by simpa using there
            exact ⟨last, fun other mem => (tidy _ _ found).2 other (mem_of_mem_eraseP mem)⟩
          · exact tidy topic' subs' (by rwa [AList.lookup_insert_ne same] at there)

/-- The snapshot of a publish holds the subscriptions whose pattern matches. -/
theorem countP_findMatchingSubscribers (tidy : s.Tidy) {entries : List (Sigma fun _ : String => List Subscriber)}
    (perm : entries ~ s.subscribers.entries) (topic : String) (keep : Subscriber → Bool) :
    (findMatchingSubscribers entries topic).countP keep =
      s.listed.countP fun sub => matchTopic topic sub.topic && keep sub := by
  have placed : ∀ entry ∈ entries, ∀ sub ∈ entry.2, sub.topic = entry.1 := fun entry mem =>
    (tidy entry.1 entry.2 (AList.mem_lookup_iff.mpr (perm.subset mem))).2
  have listed : s.listed ~ (entries.map (·.2)).flatten := (perm.symm.map _).flatten
  rw [listed.countP_eq, findMatchingSubscribers]
  clear listed perm
  induction entries with
  | nil => rfl
  | cons entry entries ih =>
    obtain ⟨here, rest⟩ := forall_mem_cons.mp placed
    have first : entry.2.countP (fun sub => matchTopic topic sub.topic && keep sub) =
        entry.2.countP (fun sub => matchTopic topic entry.1 && keep sub) :=
      countP_congr fun sub mem => by rw [here sub mem]
    rw [map_cons, flatten_cons, countP_append, first, ← ih rest]
    cases matched : matchTopic topic entry.1 <;> simp [matched, countP_append]

theorem subscribers_stamp (server : Server) (event : Event) (now : ℕ) :
    (server.stamp event now).1.subscribers = server.subscribers := by
  simp only [stamp]
  split_ifs <;> rfl

theorem subscribers_send (server : Server) (sub : Subscriber) (event : Event) (receiverWaits : Bool) :
    (server.send sub event receiverWaits).1.subscribers = server.subscribers := by
  simp only [send]
  split_ifs <;> rfl

end Server

/-! ## Publishes -/

/-- What a publish has counted, and the subscriptions it will still count. -/
def Publish.account (p : Publish) : ℕ :=
  p.delivered + p.dropped + p.rest.countP (Server.filtersMatch · p.event)

theorem Publish.account_nil {p : Publish} (rest : p.rest = []) :
    p.account = p.delivered + p.dropped := by
  rw [Publish.account, rest, countP_nil, Nat.add_zero]

theorem Publish.account_cons {p : Publish} {sub : Subscriber} {subs : List Subscriber}
    (rest : p.rest = sub :: subs) : p.account = p.delivered + p.dropped +
      (subs.countP (Server.filtersMatch · p.event) + if Server.filtersMatch sub p.event then 1 else 0) := by
  rw [Publish.account, rest, countP_cons]

/-- Coming to a subscriber counts it if the event is for it. -/
theorem Publish.next_spec (p : Publish) (server : Server) (receiverWaits : Bool) :
    (p.next server receiverWaits).1.subscribers = server.subscribers ∧
      (p.next server receiverWaits).2.pairs = p.pairs ∧
      (p.next server receiverWaits).2.account = p.account := by
  rw [Publish.next]
  cases rest : p.rest with
  | nil =>
    rw [account_nil rest]
    dsimp only
    split
    · exact ⟨rfl, rfl, account_nil rest⟩
    · exact ⟨rfl, rfl, rfl⟩
  | cons sub subs =>
    rw [account_cons rest]
    dsimp only
    split
    · refine ⟨Server.subscribers_send _ _ _ _, ?_⟩
      cases (server.send sub p.event receiverWaits).2
      · exact ⟨rfl, by simp only [Publish.account, Bool.false_eq_true, if_false]; omega⟩
      · exact ⟨rfl, by simp only [Publish.account, if_true]; omega⟩
    · exact ⟨rfl, rfl, rfl⟩

/-! ## Runs -/

namespace System

variable {s : System}

structure Sound (s : System) : Prop where
  tidy : s.server.Tidy
  /-- The subscriptions have their numbers as addresses. -/
  refs : s.registered.map (·.ref) = range s.registered.length
  gone : ∀ ref ∈ s.picked ++ s.exited, ref < s.registered.length
  listed : s.server.listed ~ s.current
  closed : s.quitClosed.Nodup ∧ s.quitClosed ⊆ s.picked
  publishes : ∀ p ∈ s.publishes, p.account = p.pairs

section

variable (sound : s.Sound)

include sound

theorem Sound.ref_inj {a b : Subscriber} (ha : a ∈ s.registered)
    (hb : b ∈ s.registered) (same : a.ref = b.ref) : a = b :=
  inj_on_of_nodup_map (by rw [sound.refs]; exact nodup_range) ha hb same

theorem Sound.nodup_current : (s.current.map (·.ref)).Nodup :=
  (filter_sublist.map _).nodup (by rw [sound.refs]; exact nodup_range)

omit sound in
/-- Leaving takes a subscription out of the current ones. -/
theorem filter_current (s : System) (ref : ℕ) :
    (s.registered.filter fun sub => sub.ref ∉ ref :: s.picked ∧ sub.ref ∉ s.exited) =
        s.current.filter (fun sub => sub.ref ≠ ref) ∧
      (s.registered.filter fun sub => sub.ref ∉ s.picked ∧ sub.ref ∉ ref :: s.exited) =
        s.current.filter (fun sub => sub.ref ≠ ref) := by
  simp only [current, filter_filter]
  constructor
  · refine filter_congr fun sub _ => ?_
    grind
  · refine filter_congr fun sub _ => ?_
    grind

theorem Sound.subscribe (id topic : String) (filters : List (String × String)) :
    (s.step (.subscribe id topic filters)).Sound := by
  have fresh : s.registered.length ∉ s.picked ∧ s.registered.length ∉ s.exited := by
    constructor <;> exact fun mem => absurd (sound.gone _ (by simp [mem])) (lt_irrefl _)
  have added : (s.step (.subscribe id topic filters)).current =
      s.current ++ [⟨s.registered.length, id, topic, filters⟩] := by
    refine (filter_append _ _).trans (congrArg _ ?_)
    refine filter_eq_self.mpr fun sub mem => ?_
    obtain rfl := mem_singleton.mp mem
    exact decide_eq_true fresh
  refine ⟨sound.tidy.register _, ?_, fun ref mem => ?_, ?_, sound.closed, sound.publishes⟩
  · simp only [step, map_append, sound.refs, length_append, range_succ, map_cons, map_nil, length_singleton]
  · simpa [step] using Nat.lt_succ_of_lt (sound.gone ref mem)
  · rw [added]
    exact (Server.listed_register _ _).trans
      ((sound.listed.cons _).trans (perm_append_singleton _ _).symm)

theorem Sound.left {server : Server} {sub : Subscriber}
    (perm : s.server.listed ~ sub :: server.listed) :
    sub ∈ s.current ∧ server.listed ~ s.current.filter (fun other => other.ref ≠ sub.ref) := by
  have current : s.current ~ sub :: server.listed := sound.listed.symm.trans perm
  exact ⟨current.mem_iff.mpr mem_cons_self,
    (perm_filter_of_perm_cons current sound.nodup_current).symm⟩

theorem Sound.ref_lt {sub : Subscriber} (mem : sub ∈ s.registered) :
    sub.ref < s.registered.length := by
  have here : sub.ref ∈ s.registered.map (·.ref) := mem_map_of_mem mem
  rwa [sound.refs, mem_range] at here

theorem Sound.unsubscribe (topic id : String) : (s.step (.unsubscribe topic id)).Sound := by
  obtain ⟨same, -⟩ | ⟨server, sub, removed, -, perm, tidy⟩ :=
    Server.removeFirst_cases sound.tidy topic fun sub => sub.id = id
  · have still : s.step (.unsubscribe topic id) = s := by
      simp only [step, Server.unsubscribe, same]
    rwa [still]
  · obtain ⟨mem, listed⟩ := sound.left perm
    obtain ⟨registered, notGone⟩ := mem_filter.mp mem
    have unpicked : sub.ref ∉ s.picked := (of_decide_eq_true notGone).1
    have next : s.step (.unsubscribe topic id) =
        { s with server := server, picked := sub.ref :: s.picked
                 quitClosed := s.quitClosed ++ [sub.ref] } := by
      simp only [step, Server.unsubscribe, removed]
    rw [next]
    refine ⟨tidy, sound.refs, fun ref here => ?_, ?_, ⟨?_, ?_⟩, sound.publishes⟩
    · obtain rfl | here := mem_cons.mp here
      · exact sound.ref_lt registered
      · exact sound.gone ref here
    · rw [current, (filter_current s sub.ref).1]
      exact listed
    · exact sound.closed.1.append (nodup_singleton _)
        (disjoint_singleton.mpr fun here => unpicked (sound.closed.2 here))
    · exact append_subset.mpr ⟨List.Subset.trans sound.closed.2 (subset_cons_self _ _), by simp⟩

theorem Sound.exit (sub : Subscriber) : (s.step (.exit sub)).Sound := by
  by_cases enabled : sub ∈ s.registered ∧ sub.ref ∉ s.exited
  · have next : s.step (.exit sub) =
        { s with server := s.server.removeSubscriber sub, exited := sub.ref :: s.exited } :=
      if_pos enabled
    have remains : (s.server.removeSubscriber sub).Tidy ∧ (s.server.removeSubscriber sub).listed ~
        s.current.filter (fun other => other.ref ≠ sub.ref) := by
      obtain ⟨same, missing⟩ | ⟨server, found, removed, picked, perm, tidy⟩ :=
        Server.removeFirst_cases sound.tidy sub.topic fun other => other.ref = sub.ref
      · -- an `Unsubscribe` was here before: no current subscription has this address
        have others : s.current.filter (fun other => other.ref ≠ sub.ref) = s.current := by
          refine filter_eq_self.mpr fun other mem => decide_eq_true fun sameRef => ?_
          obtain rfl := sound.ref_inj (mem_filter.mp mem).1 enabled.1 sameRef
          simpa using missing other (sound.listed.mem_iff.mpr mem) rfl
        rw [Server.removeSubscriber, same, others]
        exact ⟨sound.tidy, sound.listed⟩
      · obtain ⟨mem, listed⟩ := sound.left perm
        obtain rfl : found = sub :=
          sound.ref_inj (mem_filter.mp mem).1 enabled.1 (of_decide_eq_true picked)
        rw [Server.removeSubscriber, removed]
        exact ⟨tidy, listed⟩
    rw [next]
    refine ⟨remains.1, sound.refs, fun ref here => ?_, ?_, sound.closed, sound.publishes⟩
    · obtain here | here := mem_append.mp here
      · exact sound.gone ref (mem_append_left _ here)
      · obtain rfl | here := mem_cons.mp here
        · exact sound.ref_lt enabled.1
        · exact sound.gone ref (mem_append_right _ here)
    · rw [current, (filter_current s sub.ref).2]
      exact remains.2
  · rwa [show s.step (.exit sub) = s from if_neg enabled]

theorem Sound.of_publishes {server : Server} {publishes : List Publish}
    {refused : List PublishResponse} (subscribers : server.subscribers = s.server.subscribers)
    (balanced : ∀ p ∈ publishes, p.account = p.pairs) :
    Sound { s with server := server, publishes := publishes, refused := refused } where
  tidy := fun topic subs found => sound.tidy topic subs (by rwa [← subscribers])
  refs := sound.refs
  gone := sound.gone
  listed := by
    have same : server.listed = s.server.listed := by simp only [Server.listed, subscribers]
    rw [same]
    exact sound.listed
  closed := sound.closed
  publishes := balanced

theorem Sound.publish (event : Option Event) (now : ℕ)
    (entries : List (Sigma fun _ : String => List Subscriber)) :
    (s.step (.publish event now entries)).Sound := by
  cases event with
  | none => exact sound.of_publishes rfl sound.publishes
  | some event =>
    by_cases order : entries.Perm s.server.subscribers.entries
    · rw [step, if_pos order]
      refine sound.of_publishes ?_ fun p mem => ?_
      · exact Server.subscribers_stamp _ _ _
      · obtain old | rfl := (mem_append.mp mem).imp_right mem_singleton.mp
        · exact sound.publishes p old
        · simp only [Publish.account, Nat.zero_add]
          rw [Server.countP_findMatchingSubscribers sound.tidy order, sound.listed.countP_eq]
          rfl
    · rwa [step, if_neg order]

theorem Sound.deliver (index : ℕ) (receiverWaits : Bool) :
    (s.step (.deliver index receiverWaits)).Sound := by
  cases found : s.publishes[index]? with
  | none => rwa [show s.step (.deliver index receiverWaits) = s by simp only [step, found]]
  | some p =>
    obtain ⟨subscribers, pairs, balance⟩ := p.next_spec s.server receiverWaits
    simp only [step, found]
    refine sound.of_publishes subscribers fun q mem => ?_
    obtain old | rfl := mem_or_eq_of_mem_set mem
    · exact sound.publishes q old
    · rw [balance, pairs, sound.publishes p (mem_of_getElem? found)]

theorem Sound.receive (sub : Subscriber) : (s.step (.receive sub)).Sound := by
  rw [step]
  split
  · exact sound.of_publishes rfl sound.publishes
  · exact sound

theorem Sound.step (action : Action) : (s.step action).Sound := by
  cases action with
  | subscribe id topic filters => exact sound.subscribe id topic filters
  | unsubscribe topic id => exact sound.unsubscribe topic id
  | exit sub => exact sound.exit sub
  | receive sub => exact sound.receive sub
  | publish event now entries => exact sound.publish event now entries
  | deliver index receiverWaits => exact sound.deliver index receiverWaits

end

end System

end NeoRuntime.EventBus
