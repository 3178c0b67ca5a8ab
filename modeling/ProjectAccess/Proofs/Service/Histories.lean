/-
What a cache answers, told by the history of its calls.

Lookups, invalidations and purges come one after the other. Each lookup has a store of
its own, so the store may hold anything else at the next lookup, or be down. As long as
no entry outlives its time to live, nothing of the cache has to be known to say what a
lookup does. It is enough to look back (`lookup_by_history`): if a lookup of the key has
been answered since the last invalidation that covers the key, then the answer is what
the store said at the first such lookup, and the store is not asked; if there is none,
the answer is what the store says now.

# Looking back

`Since` is the temporal operator in that: something was so at a lookup of the key, and
no invalidation has covered the key since. To look back over one call more is to look at
that call, or to look back from before it if it does not invalidate (`since_snoc`).

So what is seen can be kept up to date from call to call. `recalled` does so: it is what
a memory holds of a key that takes the first thing it is told and loses it with an
invalidation. `since_iff` is the one induction over the calls that ties `Since` to it,
and the cache is tied to it by mirroring it (`mirrors_handleAll`).
-/
import Mathlib.Data.List.Induction
import ProjectAccess.Proofs.Cache.Contents
import ProjectAccess.Proofs.Service.Lookups

namespace ProjectAccess

namespace Service

variable {s : Service} {clock : Cache.Readings} {store : MemberKey → Lookup}
variable {key : MemberKey} {now : Nat}

-- ==================================================== lookups as inquiries

/-- A lookup as an inquiry: finished by the cache, or waiting for the store. -/
def inquire (now : Nat) (key : MemberKey) (s : Service) : Inquiry (Option Membership) :=
  match (s.beginLookup now key).1 with
  | .hit membership => .finished { answer := .ok membership }
  | .miss _ => .waiting key fun result => { answer := result }

/-- A lookup is answered as the inquiry is. -/
theorem answer_inquire :
    ((s.inquire clock.begun key).answeredBy store).answer = (s.lookup clock store key).1 := by
  unfold inquire lookup
  cases s.beginLookup clock.begun key with
  | mk beginning s' => cases beginning <;> rfl

theorem inquire_of_hit {c c' : Cache} {membership : Option Membership} (hcache : s.cache = some c)
    (hbegin : c.begin now key = (.hit membership, c')) :
    s.inquire now key = .finished { answer := .ok membership } := by
  unfold inquire beginLookup
  rw [hcache]
  dsimp only
  rw [hbegin]

theorem inquire_of_miss {c c' : Cache} {ticket : Ticket} (hcache : s.cache = some c)
    (hbegin : c.begin now key = (.miss ticket, c')) :
    s.inquire now key = .waiting key fun result => { answer := result } := by
  unfold inquire beginLookup
  rw [hcache]
  dsimp only
  rw [hbegin]

-- ================================================================ calls

/-- What a service with a cache may be called for. -/
inductive Call where
  /-- The store is as it is at this lookup. -/
  | lookup (clock : Cache.Readings) (store : MemberKey → Lookup) (key : MemberKey)
  | invalidate (scope : Cache.Scope)
  | purge (now : Nat)

/-- The service after a call. -/
def handle (s : Service) (call : Call) : Service :=
  match call with
  | .lookup clock store key => (s.lookup clock store key).2
  | .invalidate scope => s.invalidate scope
  | .purge now => s.purge now

/-- The service after calls, one after the other. -/
def handleAll (s : Service) (calls : List Call) : Service := calls.foldl handle s

theorem handleAll_snoc {calls : List Call} {call : Call} :
    s.handleAll (calls ++ [call]) = (s.handleAll calls).handle call := List.foldl_append

/-- The call is an invalidation that covers the key. -/
def Call.invalidates (call : Call) (key : MemberKey) : Bool :=
  match call with
  | .invalidate scope => scope.covers key
  | _ => false

/-- What the clock shows in the course of a call. -/
def Call.readings (call : Call) : List Nat :=
  match call with
  | .lookup clock _ _ => [clock.begun, clock.stored, clock.swept]
  | .invalidate _ => []
  | .purge now => [now]

/-- The clock has been between two times for the whole of the calls. -/
def Within (start stop : Nat) (calls : List Call) : Prop :=
  ∀ call ∈ calls, ∀ reading ∈ call.readings, start ≤ reading ∧ reading < stop

-- ========================================================= looking back

/-- At a lookup of the key this was so of the calls before it, and no invalidation has
covered the key since. -/
def Since (key : MemberKey) (P : List Call → Cache.Readings → (MemberKey → Lookup) → Prop)
    (calls : List Call) : Prop :=
  ∃ before clock store after, calls = before ++ .lookup clock store key :: after
    ∧ P before clock store ∧ ∀ call ∈ after, call.invalidates key = false

/-- A lookup of the key has been answered, and no invalidation has covered it since. -/
def Answered (s : Service) (key : MemberKey) : List Call → Prop :=
  Since key fun before clock store =>
    ∃ membership, ((s.handleAll before).lookup clock store key).1 = .ok membership

/-- At the first lookup of the key that has been answered since the last invalidation
that covers it, the store said this. -/
def Learned (s : Service) (key : MemberKey) (membership : Option Membership) :
    List Call → Prop :=
  Since key fun before _ store => ¬ Answered s key before ∧ store key = .ok membership

variable {P : List Call → Cache.Readings → (MemberKey → Lookup) → Prop}
variable {calls : List Call} {call : Call}

theorem not_since_nil : ¬ Since key P [] := by
  rintro ⟨before, clock, store, after, hsplit, -⟩
  exact List.append_ne_nil_of_right_ne_nil before (List.cons_ne_nil _ after) hsplit.symm

theorem since_snoc : Since key P (calls ++ [call])
    ↔ (∃ clock store, call = .lookup clock store key ∧ P calls clock store)
      ∨ (Since key P calls ∧ call.invalidates key = false) := by
  constructor
  · rintro ⟨before, clock, store, after, hsplit, hthen, hafter⟩
    rcases List.eq_nil_or_concat after with rfl | ⟨after, last, rfl⟩
    · -- the lookup is the last call
      obtain ⟨rfl, hcall⟩ := List.append_inj' hsplit rfl
      exact .inl ⟨clock, store, List.singleton_inj.1 hcall, hthen⟩
    · rw [List.concat_eq_append, ← List.cons_append, ← List.append_assoc] at hsplit
      obtain ⟨hcalls, hlast⟩ := List.append_inj' hsplit rfl
      rw [List.singleton_inj.1 hlast]
      rw [List.concat_eq_append] at hafter
      refine .inr ⟨⟨before, clock, store, after, hcalls, hthen, fun call hmem => ?_⟩, ?_⟩
      · exact hafter call (List.mem_append_left [last] hmem)
      · exact hafter last (List.mem_append_right after (List.mem_singleton_self last))
  · rintro (⟨clock, store, rfl, hthen⟩ | ⟨hsince, hcall⟩)
    · exact ⟨calls, clock, store, [], rfl, hthen, nofun⟩
    · obtain ⟨before, clock, store, after, rfl, hthen, hafter⟩ := hsince
      refine ⟨before, clock, store, after ++ [call], by simp, hthen, fun call' hmem => ?_⟩
      rcases List.mem_append.1 hmem with hmem | hmem
      · exact hafter call' hmem
      · rw [List.mem_singleton.1 hmem]
        exact hcall

-- ============================================================= recalling

/-- What is known of a key after a call, given what was known before. -/
def Call.recall (call : Call) (key : MemberKey) (known : Option (Option Membership)) :
    Option (Option Membership) :=
  match call with
  | .lookup _ store k => if k = key then known.or (store key).toOption else known
  | .invalidate scope => if scope.covers key then none else known
  | .purge _ => known

/-- What is known of a key after calls. -/
def recalled (key : MemberKey) (calls : List Call) : Option (Option Membership) :=
  calls.foldl (fun known call => call.recall key known) none

theorem recalled_snoc :
    recalled key (calls ++ [call]) = call.recall key (recalled key calls) := List.foldl_append

/-- If `Q` holds of what is known after a lookup of the key just when `P` holds at the
lookup or `Q` held already, then `Q` holds of what is known just when `P` held since. -/
theorem since_iff {Q : Option (Option Membership) → Prop} (hnone : ¬ Q none)
    (hlookup : ∀ before clock store, before ++ [.lookup clock store key] <+: calls →
      (Q ((recalled key before).or (store key).toOption)
        ↔ P before clock store ∨ Q (recalled key before))) :
    Since key P calls ↔ Q (recalled key calls) := by
  induction calls using List.reverseRecOn with
  | nil => exact iff_of_false not_since_nil hnone
  | append_singleton calls call ih =>
      have hbefore : Since key P calls ↔ Q (recalled key calls) :=
        ih fun before clock store hleads =>
          hlookup before clock store (List.IsPrefix.trans hleads (List.prefix_append calls [call]))
      rw [since_snoc, recalled_snoc, hbefore]
      cases call with
      | lookup clock store k =>
          unfold Call.recall Call.invalidates
          dsimp only
          by_cases hk : k = key
          · subst hk
            rw [if_pos rfl, hlookup calls clock store (List.prefix_refl _)]
            simp
          · rw [if_neg hk]
            simp [hk]
      | invalidate scope =>
          unfold Call.recall Call.invalidates
          cases hcovers : scope.covers key with
          | true => simp [hcovers, hnone]
          | false => simp [hcovers]
      | purge now => simp [Call.recall, Call.invalidates]

-- ======================================================== the cache knows

variable {memory : Cache.Memory} {start ttl : Nat} {c : Cache}

/-- A lookup that is told nothing new leaves what is known as it is. -/
theorem recall_lookup_of_known (hkey : (memory key).or (store key).toOption = memory key) :
    (fun k => (Call.lookup clock store key).recall k (memory k)) = memory := by
  funext k
  unfold Call.recall
  dsimp only
  split
  next hk =>
    subst hk
    exact hkey
  next => rfl

theorem mirrors_lookup (hcache : s.cache = some c) (h : c.Mirrors memory start ttl)
    (hbegun : clock.begun < start + ttl) (hstored : start ≤ clock.stored)
    (hswept : clock.swept < start + ttl) :
    ∃ c', (s.lookup clock store key).2.cache = some c'
      ∧ c'.Mirrors (fun k => (Call.lookup clock store key).recall k (memory k)) start ttl := by
  cases hknown : memory key with
  | some membership =>
      have hkey : (memory key).or (store key).toOption = memory key := by
        rw [hknown]
        rfl
      rw [lookup_of_hit hcache (h.begin_of_some hknown hbegun), recall_lookup_of_known hkey]
      exact ⟨c, rfl, h⟩
  | none =>
      have hbegin : c.begin clock.begun key = (.miss ⟨key, c.generation⟩, c) :=
        h.begin_of_none hknown
      cases hstore : store key with
      | error error =>
          have hkey : (memory key).or (store key).toOption = memory key := by
            rw [hknown, hstore]
            rfl
          rw [lookup_of_failure hcache hbegin hstore, recall_lookup_of_known hkey]
          exact ⟨c, rfl, h⟩
      | ok membership =>
          rw [lookup_of_miss hcache hbegin hstore]
          refine ⟨_, rfl, h.finish rfl hstored hswept ?_ fun k hk => if_neg (Ne.symm hk)⟩
          show (if key = key then (memory key).or (store key).toOption else memory key) = _
          rw [if_pos rfl, hknown, hstore]
          rfl

/-- A cache that mirrors what is known before a call mirrors what is known after it. -/
theorem mirrors_handle (hcache : s.cache = some c) (h : c.Mirrors memory start ttl)
    (hclock : ∀ reading ∈ call.readings, start ≤ reading ∧ reading < start + ttl) :
    ∃ c', (s.handle call).cache = some c'
      ∧ c'.Mirrors (fun key => call.recall key (memory key)) start ttl := by
  cases call with
  | lookup clock store key =>
      have hbegun := hclock clock.begun (by simp [Call.readings])
      have hstored := hclock clock.stored (by simp [Call.readings])
      have hswept := hclock clock.swept (by simp [Call.readings])
      exact mirrors_lookup hcache h hbegun.2 hstored.1 hswept.2
  | invalidate scope =>
      refine ⟨c.invalidate scope, congrArg (Option.map _) hcache, h.invalidate ?_ ?_⟩
      · exact fun k hcovers => if_pos hcovers
      · intro k hcovers
        unfold Call.recall
        dsimp only
        rw [hcovers]
        rfl
  | purge now =>
      have hnow := hclock now (by simp [Call.readings])
      refine ⟨c, ?_, h⟩
      show s.cache.map (·.purge now) = some c
      rw [hcache, Option.map_some, h.purge_eq hnow.2]

theorem mirrors_handleAll (hcache : s.cache = some (.new ttl))
    (hclock : Within start (start + ttl) calls) :
    ∃ c, (s.handleAll calls).cache = some c
      ∧ c.Mirrors (fun key => recalled key calls) start ttl := by
  induction calls using List.reverseRecOn with
  | nil => exact ⟨.new ttl, hcache, Cache.mirrors_new⟩
  | append_singleton calls call ih =>
      obtain ⟨c, hc, hmirrors⟩ :=
        ih fun call' hmem => hclock call' (List.mem_append_left [call] hmem)
      obtain ⟨c', hc', hmirrors'⟩ := mirrors_handle hc hmirrors
        (hclock call (List.mem_append_right calls (List.mem_singleton_self call)))
      refine ⟨c', ?_, ?_⟩
      · rw [handleAll_snoc]
        exact hc'
      · simp only [recalled_snoc]
        exact hmirrors'

/-- After calls, a lookup is answered by what is known of the key, or by the store. -/
theorem inquire_handleAll (key : MemberKey) (hcache : s.cache = some (.new ttl))
    (hclock : Within start (start + ttl) calls) (hnow : now < start + ttl) :
    (s.handleAll calls).inquire now key
      = match recalled key calls with
        | some membership => .finished { answer := .ok membership }
        | none => .waiting key fun result => { answer := result } := by
  obtain ⟨c, hc, hmirrors⟩ := mirrors_handleAll hcache hclock
  cases hknown : recalled key calls with
  | some membership => exact inquire_of_hit hc (hmirrors.begin_of_some hknown hnow)
  | none => exact inquire_of_miss hc (hmirrors.begin_of_none hknown)

theorem lookup_handleAll (store : MemberKey → Lookup) (key : MemberKey)
    (hcache : s.cache = some (.new ttl)) (hclock : Within start (start + ttl) calls)
    (hbegun : clock.begun < start + ttl) :
    ((s.handleAll calls).lookup clock store key).1
      = match recalled key calls with
        | some membership => .ok membership
        | none => store key := by
  rw [← answer_inquire, inquire_handleAll key hcache hclock hbegun]
  cases recalled key calls <;> rfl

-- ================================================= known by the history

/-- A lookup among calls in such a time is begun in it, after calls in it. -/
theorem Within.of_prefix {before : List Call} {stop : Nat} (h : Within start stop calls)
    (hleads : before ++ [.lookup clock store key] <+: calls) :
    Within start stop before ∧ clock.begun < stop := by
  have hmem : ∀ call ∈ before ++ [.lookup clock store key], call ∈ calls :=
    fun _ hcall => hleads.subset hcall
  constructor
  · exact fun call hcall => h call (hmem call (List.mem_append_left _ hcall))
  · have hlast : Call.lookup clock store key ∈ calls :=
      hmem _ (List.mem_append_right before (List.mem_singleton_self _))
    exact (h _ hlast clock.begun (by simp [Call.readings])).2

theorem answered_iff (hcache : s.cache = some (.new ttl))
    (hclock : Within start (start + ttl) calls) :
    Answered s key calls ↔ (recalled key calls).isSome = true := by
  refine since_iff (Q := fun known => known.isSome = true) Bool.false_ne_true
    fun before clock store hleads => ?_
  obtain ⟨hbefore, hbegun⟩ := hclock.of_prefix hleads
  rw [lookup_handleAll store key hcache hbefore hbegun]
  cases recalled key before with
  | some membership => exact iff_of_true rfl (.inr rfl)
  | none =>
      -- what is known from now on is what the store says, if it says anything
      cases store key <;> simp [Except.toOption]

theorem learned_iff {membership : Option Membership} (hcache : s.cache = some (.new ttl))
    (hclock : Within start (start + ttl) calls) :
    Learned s key membership calls ↔ recalled key calls = some membership := by
  refine since_iff (Q := fun known => known = some membership) (Option.some_ne_none _).symm
    fun before clock store hleads => ?_
  obtain ⟨hbefore, -⟩ := hclock.of_prefix hleads
  rw [answered_iff hcache hbefore]
  cases recalled key before with
  | some known => simp
  | none => cases store key <;> simp [Except.toOption]

theorem recalled_of_not_covers {before after : List Call} {scope : Cache.Scope}
    (hcovers : scope.covers key = false) :
    recalled key (before ++ .invalidate scope :: after) = recalled key (before ++ after) := by
  -- leaving the invalidation out makes no difference at its place, so none later
  have hcall : (Call.invalidate scope).recall key (recalled key before) = recalled key before := by
    unfold Call.recall
    dsimp only
    rw [hcovers]
    rfl
  unfold recalled at hcall ⊢
  rw [List.foldl_append, List.foldl_append, List.foldl_cons, hcall]

-- ========================================================== main result

/-- After calls of a service whose cache began without entries, in the course of which no
entry has outlived its time to live, a lookup does not ask the store just when a lookup
of the key has been answered since the last invalidation that covers it. Then the answer
is what the store said at the first lookup that was. Otherwise the store is asked, once
and for the key, and its answer is the answer. Invalidations that do not cover the key
make no difference to any of this. The size of the cache is the number of keys for which
the store is not asked. -/
theorem lookup_by_history (s : Service) (ttl start : Nat) (calls : List Call)
    (hcache : s.cache = some (.new ttl)) (hclock : Within start (start + ttl) calls) :
    (∀ clock store key, clock.begun < start + ttl →
        (((s.handleAll calls).inquire clock.begun key).answeredBy store).answer
          = ((s.handleAll calls).lookup clock store key).1
        ∧ (((s.handleAll calls).inquire clock.begun key).asked? = none ↔ Answered s key calls)
        ∧ (Answered s key calls ↔ ∃ membership, Learned s key membership calls)
        ∧ (∀ membership, Learned s key membership calls →
            ((s.handleAll calls).lookup clock store key).1 = .ok membership)
        ∧ (¬ Answered s key calls →
            ((s.handleAll calls).inquire clock.begun key).asked? = some key
              ∧ ((s.handleAll calls).lookup clock store key).1 = store key)
        ∧ ∀ before scope after, calls = before ++ .invalidate scope :: after →
            scope.covers key = false →
            (s.handleAll calls).inquire clock.begun key
              = (s.handleAll (before ++ after)).inquire clock.begun key)
      ∧ ∃ (c : Cache) (keys : Finset MemberKey), (s.handleAll calls).cache = some c
          ∧ (∀ key, key ∈ keys ↔ Answered s key calls) ∧ c.size = keys.card := by
  refine ⟨fun clock store key hbegun => ?_, ?_⟩
  · have hinquire := inquire_handleAll key hcache hclock hbegun
    have hlookup := lookup_handleAll store key hcache hclock hbegun
    rw [answered_iff hcache hclock]
    simp only [learned_iff hcache hclock]
    refine ⟨answer_inquire, ?_, Option.isSome_iff_exists, fun membership hknown => ?_,
      fun hunknown => ?_, ?_⟩
    · rw [hinquire]
      cases recalled key calls <;> simp [Inquiry.asked?]
    · rw [hlookup, hknown]
    · rw [Option.not_isSome_iff_eq_none] at hunknown
      rw [hinquire, hlookup, hunknown]
      exact ⟨rfl, rfl⟩
    · rintro before scope after rfl hcovers
      have hothers : Within start (start + ttl) (before ++ after) := by
        intro call hmem
        refine hclock call ?_
        rcases List.mem_append.1 hmem with hmem | hmem
        · exact List.mem_append_left _ hmem
        · exact List.mem_append_right _ (List.mem_cons_of_mem _ hmem)
      rw [hinquire, inquire_handleAll key hcache hothers hbegun, recalled_of_not_covers hcovers]
  · obtain ⟨c, hc, hmirrors⟩ := mirrors_handleAll hcache hclock
    obtain ⟨keys, hkeys, hsize⟩ := hmirrors.size_eq
    exact ⟨c, keys, hc, fun key => (hkeys key).trans (answered_iff hcache hclock).symm, hsize⟩

/-- An editor, as the store says when it is up. -/
def editor : Membership := .new ⟨7⟩ (.new ⟨3⟩ ⟨1⟩ "Editor" ["modify_project"])

/-- Somebody who is no member. -/
def passerby : MemberKey := ⟨⟨8⟩, ⟨1⟩⟩

/-- The editor is looked up while the store is down, and again when it is up, and
somebody else too. Of these lookups an invalidation makes the last void. -/
def rounds : List Call :=
  [.lookup (.still 1) (fun _ => .error (.unavailable "down")) editor.key,
    .lookup ⟨2, 3, 4⟩ (fun _ => .ok (some editor)) editor.key,
    .lookup (.still 5) (fun _ => .ok none) passerby,
    .invalidate (.member passerby), .invalidate (.project ⟨2⟩), .purge 6]

/-- After that the store is asked for the other one only, and the editor is one still
when the store says otherwise. -/
theorem lookup_handleAll_rounds :
    let s : Service :=
      { catalog := ⟨{}, List.nodup_nil⟩, registry := .empty, cache := some (.new 60000) }
    Within 0 60000 rounds
      ∧ Learned s editor.key (some editor) rounds
      ∧ ((s.handleAll rounds).inquire 7 editor.key).asked? = none
      ∧ ((s.handleAll rounds).lookup (.still 7) (fun _ => .ok none) editor.key).1
          = .ok (some editor)
      ∧ ((s.handleAll rounds).inquire 7 passerby).asked? = some passerby := by
  intro s
  have hclock : Within 0 (0 + 60000) rounds := by
    simp [Within, rounds, Call.readings, Cache.Readings.still]
  obtain ⟨hnext, -⟩ := lookup_by_history s 60000 0 rounds rfl hclock
  obtain ⟨-, hasked, hanswered, hanswer, -⟩ :=
    hnext (.still 7) (fun _ => .ok none) editor.key (by decide)
  obtain ⟨-, -, -, -, hunanswered, -⟩ := hnext (.still 7) (fun _ => .ok none) passerby (by decide)
  have hlearned : Learned s editor.key (some editor) rounds := (learned_iff rfl hclock).2 rfl
  have hpasserby : ¬ Answered s passerby rounds := (answered_iff rfl hclock).not.2 (by decide)
  exact ⟨hclock, hlearned, hasked.2 (hanswered.2 ⟨_, hlearned⟩), hanswer _ hlearned,
    (hunanswered hpasserby).1⟩

end Service

end ProjectAccess
