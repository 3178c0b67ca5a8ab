/-
Lookups that overlap invalidations leave nothing stale.

`Cache.Traffic` is a cache in use: the store behind it, which may come to hold
anything at any time, a clock, and the lookups in flight. A lookup takes three moves.
It begins and gets a ticket, the store reads the membership, and it finishes with
what was read; or it ends without an answer and leaves nothing. Between the moves of
one lookup those of any others may come, and changes of the store, invalidations,
purges and time. A move that is not possible changes nothing, so every list of moves
is a run.

# The invariant

A cached membership is to be one that the store held since the last invalidation that
covers the key (`HeldSince`). Entries alone do not keep that: the lookups in flight
bring new ones. What `Sound` says of them is what their tickets are for:

- a ticket carries the word of the generation in which its lookup began, and that
  generation is not still to come;
- what the store told a lookup of the present generation was held since the last
  invalidation of its key.

An invalidation makes the last void for all lookups in flight at once, whatever it
covers, because their generation is over. So a lookup that was overtaken finishes
without leaving an entry, and the others bring what `Sound` allows.

# Generations and words

A lookup that finishes compares two words, and words repeat: after 2^64 invalidations
the generation has the word again that it had before. Beside the words the model
therefore counts the invalidations without bound, for the cache and for every lookup
when it begins. Nothing that the cache does depends on these numbers. They say when two
equal words stand for one generation: as long as no lookup is in flight for 2^64
invalidations (`Unlapped`), which is so in every run with fewer of them
(`unlapped_of_few`).

That bound is not for the convenience of the proof. A lookup that 2^64 invalidations
have overtaken takes the generation for its own, and leaves what it was told
(`stale_of_lapped`). At one invalidation in a nanosecond it would be in flight for more
than five hundred years.
-/
import Mathlib.Data.List.Induction
import ProjectAccess.Proofs.Cache.Entries

namespace ProjectAccess

namespace Cache

-- ========================================================= cache in use

/-- A lookup in flight, with the number of invalidations before it began. -/
inductive Flight where
  /-- The store has not read the membership yet. -/
  | asking (ticket : Ticket) (begun : Nat)
  /-- The store has told the membership, and the lookup has not finished. -/
  | told (ticket : Ticket) (begun : Nat) (membership : Option Membership)
  deriving DecidableEq

def Flight.ticket : Flight → Ticket
  | .asking ticket _ => ticket
  | .told ticket _ _ => ticket

def Flight.begun : Flight → Nat
  | .asking _ begun => begun
  | .told _ begun _ => begun

/-- A cache in use. -/
structure Traffic where
  cache : Cache
  now : Nat
  /-- What the store behind the cache holds. -/
  held : MemberKey → Option Membership
  /-- The number of invalidations so far, of which the cache keeps the word. -/
  invalidations : Nat
  flights : List Flight

/-- What may happen next. Lookups are named by their place among those in flight. -/
inductive Move where
  /-- A lookup begins. -/
  | begin (key : MemberKey)
  /-- The store reads what a lookup has asked for. -/
  | read (index : Nat)
  /-- A lookup finishes with what it was told, and some time passes before it sweeps. -/
  | finish (index : Nat) (pause : Nat)
  /-- A lookup ends without an answer. -/
  | fail (index : Nat)
  /-- The store comes to hold other memberships. -/
  | change (held : MemberKey → Option Membership)
  | invalidate (scope : Scope)
  | purge
  /-- Time passes. -/
  | advance (span : Nat)

/-- The move is an invalidation, whatever it covers. -/
def Move.isInvalidation : Move → Bool
  | .invalidate _ => true
  | _ => false

/-- The move changes what the store holds. -/
def Move.isChange : Move → Bool
  | .change _ => true
  | _ => false

/-- The move is an invalidation that covers the key. -/
def Move.invalidates (move : Move) (key : MemberKey) : Bool :=
  match move with
  | .invalidate scope => scope.covers key
  | _ => false

namespace Traffic

/-- An empty cache in front of a store. -/
def start (ttl now : Nat) (held : MemberKey → Option Membership) : Traffic :=
  ⟨.new ttl, now, held, 0, []⟩

/-- Makes a move. -/
def step (t : Traffic) (move : Move) : Traffic :=
  match move with
  | .begin key =>
    match t.cache.begin t.now key with
    | (.hit _, cache) => { t with cache }
    | (.miss ticket, cache) =>
      { t with cache, flights := t.flights ++ [.asking ticket t.invalidations] }
  | .read index =>
    match t.flights[index]? with
    | some (.asking ticket begun) =>
      { t with flights := t.flights.set index (.told ticket begun (t.held ticket.key)) }
    | _ => t
  | .finish index pause =>
    match t.flights[index]? with
    | some (.told ticket _ membership) =>
      { t with
        cache := t.cache.finish t.now (t.now + pause) ticket membership
        now := t.now + pause
        flights := t.flights.eraseIdx index }
    | _ => t
  | .fail index => { t with flights := t.flights.eraseIdx index }
  | .change held => { t with held }
  | .invalidate scope =>
    { t with cache := t.cache.invalidate scope, invalidations := t.invalidations + 1 }
  | .purge => { t with cache := t.cache.purge t.now }
  | .advance span => { t with now := t.now + span }

/-- Makes moves one after the other. -/
def run (t : Traffic) (moves : List Move) : Traffic := moves.foldl step t

variable {t : Traffic} {moves : List Move} {move : Move}

theorem run_append {more : List Move} : t.run (moves ++ more) = (t.run moves).run more :=
  List.foldl_append

theorem run_append_singleton : t.run (moves ++ [move]) = (t.run moves).step move :=
  run_append

/-- What a move does outside of the cache: it is counted if it is an invalidation, and what
the store holds is only changed by a change of the store. -/
theorem step_outside :
    (t.step move).invalidations = t.invalidations + (if move.isInvalidation then 1 else 0)
      ∧ (move.isChange = false → (t.step move).held = t.held) := by
  cases move with
  | begin key =>
      unfold step
      dsimp only
      split <;> exact ⟨rfl, fun _ => rfl⟩
  | read index =>
      unfold step
      dsimp only
      split <;> exact ⟨rfl, fun _ => rfl⟩
  | finish index pause =>
      unfold step
      dsimp only
      split <;> exact ⟨rfl, fun _ => rfl⟩
  | change held => exact ⟨rfl, nofun⟩
  | fail index => exact ⟨rfl, fun _ => rfl⟩
  | invalidate scope => exact ⟨rfl, fun _ => rfl⟩
  | purge => exact ⟨rfl, fun _ => rfl⟩
  | advance span => exact ⟨rfl, fun _ => rfl⟩

theorem held_run (hmoves : ∀ move ∈ moves, move.isChange = false) :
    (t.run moves).held = t.held := by
  induction moves using List.reverseRecOn with
  | nil => rfl
  | append_singleton moves move ih =>
      have hlast : move.isChange = false :=
        hmoves move (List.mem_append_right moves List.mem_cons_self)
      rw [run_append_singleton, step_outside.2 hlast]
      exact ih fun move hmem => hmoves move (List.mem_append_left _ hmem)

/-- The number kept beside the cache is that of the invalidations among the moves. -/
theorem invalidations_run {ttl now : Nat} {held : MemberKey → Option Membership} :
    ((start ttl now held).run moves).invalidations = moves.countP Move.isInvalidation := by
  induction moves using List.reverseRecOn with
  | nil => rfl
  | append_singleton moves move ih =>
      rw [run_append_singleton, step_outside.1, ih, List.countP_append, List.countP_singleton]

end Traffic

-- ============================================================== history

variable {start t t' : Traffic} {moves : List Move} {move : Move}
variable {key : MemberKey} {membership : Option Membership}

/-- In the course of the moves the store held this for the key at a moment after which
no invalidation covered the key. -/
def HeldSince (start : Traffic) (moves : List Move) (key : MemberKey)
    (membership : Option Membership) : Prop :=
  ∃ before after, moves = before ++ after ∧ (∀ move ∈ after, move.invalidates key = false)
    ∧ (start.run before).held key = membership

theorem heldSince_held : HeldSince start moves key ((start.run moves).held key) :=
  ⟨moves, [], (List.append_nil moves).symm, nofun, rfl⟩

/-- What was held since then is so after one more move, if it is no invalidation that
covers the key. -/
theorem HeldSince.snoc (h : HeldSince start moves key membership)
    (hmove : move.invalidates key = false) :
    HeldSince start (moves ++ [move]) key membership := by
  obtain ⟨before, after, rfl, hafter, hheld⟩ := h
  refine ⟨before, after ++ [move], List.append_assoc before after [move], ?_, hheld⟩
  intro move' hmem
  rcases List.mem_append.1 hmem with hmem | hmem
  · exact hafter move' hmem
  · rw [List.mem_singleton.1 hmem]
    exact hmove

/-- If the store does not change after an invalidation that covers the key, then what it
held at the invalidation is all that it held since then. -/
theorem HeldSince.eq_of_unchanged {before after : List Move} {scope : Scope}
    (h : HeldSince start (before ++ .invalidate scope :: after) key membership)
    (hcovers : scope.covers key = true) (hafter : ∀ move ∈ after, move.isChange = false) :
    membership = (start.run before).held key := by
  obtain ⟨early, late, hsplit, hlate, rfl⟩ := h
  -- the invalidation is no move of the second part
  have hmem : Move.invalidate scope ∉ late := by
    intro hmem
    have hquiet : scope.covers key = false := hlate _ hmem
    rw [hcovers] at hquiet
    cases hquiet
  rcases List.append_eq_append_iff.1 hsplit with ⟨rest, rfl, hrest⟩ | ⟨rest, rfl, hrest⟩
  · cases rest with
    | nil =>
        rw [List.nil_append] at hrest
        rw [← hrest] at hmem
        exact absurd List.mem_cons_self hmem
    | cons move rest =>
        obtain ⟨rfl, rfl⟩ := List.cons.inj hrest
        rw [Traffic.run_append, Traffic.held_run]
        intro move hmove
        rcases List.mem_cons.1 hmove with rfl | hmove
        · rfl
        · exact hafter move (List.mem_append_left late hmove)
  · rw [hrest] at hmem
    exact absurd (List.mem_append_right rest List.mem_cons_self) hmem

-- =============================================================== words

/-- No lookup in flight is overtaken by as many invalidations as a word tells apart. -/
def InTime (t : Traffic) : Prop :=
  ∀ flight ∈ t.flights, t.invalidations < flight.begun + UInt64.size

/-- In the course of the moves no lookup is in flight for as many invalidations as a
word tells apart. -/
def Unlapped (start : Traffic) (moves : List Move) : Prop :=
  ∀ before, before <+: moves → InTime (start.run before)

theorem Unlapped.of_snoc (h : Unlapped start (moves ++ [move])) : Unlapped start moves :=
  fun before hbefore => h before (hbefore.trans (List.prefix_append moves [move]))

/-- With fewer invalidations no lookup can be overtaken by so many. -/
theorem unlapped_of_few {ttl now : Nat} {held : MemberKey → Option Membership}
    (hfew : moves.countP Move.isInvalidation < UInt64.size) :
    Unlapped (.start ttl now held) moves := by
  intro before hbefore flight _
  have hcount : before.countP Move.isInvalidation ≤ moves.countP Move.isInvalidation :=
    hbefore.sublist.countP_le
  rw [Traffic.invalidations_run]
  omega

/-- Numbers that are not a whole word apart are equal if their words are. -/
theorem eq_of_word_eq {m n : Nat} (hle : m ≤ n) (hlt : n < m + UInt64.size)
    (hword : UInt64.ofNat n = UInt64.ofNat m) : m = n := by
  have hmod : n % UInt64.size = m % UInt64.size := by
    have hnat := congrArg UInt64.toNat hword
    rwa [UInt64.toNat_ofNat', UInt64.toNat_ofNat'] at hnat
  unfold UInt64.size at hlt hmod
  omega

-- ============================================================ invariant

/-- The ticket has the word of the generation in which the lookup began. If the lookup
has been told something and its generation lasts, then that was held since the last
invalidation of its key. -/
structure Flight.Sound (start : Traffic) (moves : List Move) (invalidations : Nat)
    (flight : Flight) : Prop where
  generation : flight.ticket.generation = UInt64.ofNat flight.begun
  begun_le : flight.begun ≤ invalidations
  told : ∀ {ticket begun membership}, flight = .told ticket begun membership →
    begun = invalidations → HeldSince start moves ticket.key membership

/-- The cache has the word of the present generation. What is cached, and what may still
come to be cached, was held since the last invalidation that covers it. -/
structure Sound (start : Traffic) (moves : List Move) (t : Traffic) : Prop where
  generation : t.cache.generation = UInt64.ofNat t.invalidations
  entries : ∀ {key entry}, (key, entry) ∈ t.cache.entries →
    HeldSince start moves key entry.membership
  flights : ∀ {flight}, flight ∈ t.flights → flight.Sound start moves t.invalidations

theorem sound_start {ttl now : Nat} {held : MemberKey → Option Membership} :
    Sound start [] (Traffic.start ttl now held) where
  generation := rfl
  entries h := absurd h not_mem_new
  flights h := absurd h List.not_mem_nil

theorem Flight.Sound.snoc {flight : Flight} {invalidations : Nat}
    (h : flight.Sound start moves invalidations)
    (hquiet : ∀ key, move.invalidates key = false) :
    flight.Sound start (moves ++ [move]) invalidations where
  generation := h.generation
  begun_le := h.begun_le
  told {ticket _ _} htold hsame := (h.told htold hsame).snoc (hquiet ticket.key)

/-- After a move that is no invalidation, only what is new needs a look. -/
theorem Sound.step_of_quiet (h : Sound start moves t) (hquiet : ∀ key, move.invalidates key = false)
    (hgeneration : t'.cache.generation = t.cache.generation)
    (hcount : t'.invalidations = t.invalidations)
    (hentries : ∀ {key entry}, (key, entry) ∈ t'.cache.entries →
      (key, entry) ∈ t.cache.entries ∨ HeldSince start moves key entry.membership)
    (hflights : ∀ {flight}, flight ∈ t'.flights →
      flight ∈ t.flights ∨ flight.Sound start moves t.invalidations) :
    Sound start (moves ++ [move]) t' where
  generation := by rw [hgeneration, hcount, h.generation]
  entries {key entry} hmem := by
    have hheld : HeldSince start moves key entry.membership := by
      rcases hentries hmem with hold | hnew
      · exact h.entries hold
      · exact hnew
    exact hheld.snoc (hquiet key)
  flights {flight} hmem := by
    have hsound : flight.Sound start moves t.invalidations := by
      rcases hflights hmem with hold | hnew
      · exact h.flights hold
      · exact hnew
    rw [hcount]
    exact hsound.snoc hquiet

/-- A move after which there is nothing new keeps everything sound. -/
theorem Sound.step_of_subset (h : Sound start moves t)
    (hquiet : ∀ key, move.invalidates key = false)
    (hgeneration : t'.cache.generation = t.cache.generation)
    (hcount : t'.invalidations = t.invalidations)
    (hentries : t'.cache.entries ⊆ t.cache.entries) (hflights : t'.flights ⊆ t.flights) :
    Sound start (moves ++ [move]) t' :=
  h.step_of_quiet hquiet hgeneration hcount (fun hmem => .inl (hentries hmem))
    fun hmem => .inl (hflights hmem)

/-- A lookup that begins has been told nothing, and its generation is the present one. -/
theorem Sound.step_begin (h : Sound start moves t) :
    Sound start (moves ++ [.begin key]) (t.step (.begin key)) := by
  have hgeneration : (t.cache.begin t.now key).2.generation = t.cache.generation :=
    generation_begin
  have hentries : ∀ {k entry}, (k, entry) ∈ (t.cache.begin t.now key).2.entries →
      (k, entry) ∈ t.cache.entries := mem_of_mem_begin
  have hmiss : ∀ {ticket}, (t.cache.begin t.now key).1 = .miss ticket →
      ticket = ⟨key, t.cache.generation⟩ := begin_eq_miss
  unfold Traffic.step
  dsimp only
  split
  next _ cache hbegin =>
    rw [hbegin] at hgeneration hentries
    exact h.step_of_subset (fun _ => rfl) hgeneration rfl (fun _ hmem => hentries hmem)
      (List.Subset.refl _)
  next ticket cache hbegin =>
    rw [hbegin] at hgeneration hentries hmiss
    have hnew : Flight.Sound start moves t.invalidations (.asking ticket t.invalidations) := by
      refine ⟨?_, Nat.le_refl _, fun htold => nomatch htold⟩
      rw [hmiss rfl]
      exact h.generation
    refine h.step_of_quiet (fun _ => rfl) hgeneration rfl (fun hmem => .inl (hentries hmem))
      fun hmem => ?_
    rcases List.mem_append.1 hmem with hold | hmem
    · exact .inl hold
    · rw [List.mem_singleton.1 hmem]
      exact .inr hnew

/-- What the store tells a lookup is what it holds. -/
theorem Sound.step_read (h : Sound start moves (start.run moves)) (index : Nat) :
    Sound start (moves ++ [.read index]) ((start.run moves).step (.read index)) := by
  unfold Traffic.step
  dsimp only
  split
  next ticket begun hflight =>
    have hasking := h.flights (List.mem_of_getElem? hflight)
    refine h.step_of_quiet (fun _ => rfl) rfl rfl (fun hmem => .inl hmem) fun hmem => ?_
    rcases List.mem_or_eq_of_mem_set hmem with hold | hnew
    · exact .inl hold
    · rw [hnew]
      refine .inr ⟨hasking.generation, hasking.begun_le, fun htold _ => ?_⟩
      cases htold
      exact heldSince_held
  next => exact h.step_of_subset (fun _ => rfl) rfl rfl (List.Subset.refl _) (List.Subset.refl _)

/-- A lookup in time that finds the word of its ticket in the cache began in the present
generation. -/
theorem Sound.begun_eq (h : Sound start moves t) (htime : InTime t) {flight : Flight}
    (hflight : flight ∈ t.flights) (hsame : t.cache.generation = flight.ticket.generation) :
    flight.begun = t.invalidations := by
  have hsound := h.flights hflight
  rw [h.generation, hsound.generation] at hsame
  exact eq_of_word_eq hsound.begun_le (htime flight hflight) hsame

/-- A lookup that finishes leaves an entry only if its generation lasts, and then the
entry is what the lookup was told. -/
theorem Sound.step_finish (h : Sound start moves t) (htime : InTime t) (index pause : Nat) :
    Sound start (moves ++ [.finish index pause]) (t.step (.finish index pause)) := by
  unfold Traffic.step
  dsimp only
  split
  next ticket begun membership hflight =>
    have hmem := List.mem_of_getElem? hflight
    have htold : t.cache.generation = ticket.generation →
        HeldSince start moves ticket.key membership :=
      fun hsame => (h.flights hmem).told rfl (h.begun_eq htime hmem hsame)
    refine h.step_of_quiet (fun _ => rfl) generation_finish rfl (fun hmem => ?_)
      fun hmem => .inl (List.mem_of_mem_eraseIdx hmem)
    rcases mem_filled.1 (mem_filled_of_mem_finish hmem) with ⟨hold, -⟩ | ⟨hsame, rfl, rfl⟩
    · exact .inl hold
    · -- the new entry, which a lookup of another generation would not have left
      exact .inr (htold hsame)
  next => exact h.step_of_subset (fun _ => rfl) rfl rfl (List.Subset.refl _) (List.Subset.refl _)

/-- An invalidation drops the entries that it covers, and puts an end to the generation
of every lookup in flight. -/
theorem Sound.step_invalidate (h : Sound start moves t) (scope : Scope) :
    Sound start (moves ++ [.invalidate scope]) (t.step (.invalidate scope)) where
  generation := by
    show t.cache.generation + 1 = UInt64.ofNat (t.invalidations + 1)
    rw [h.generation, UInt64.ofNat_add]
    rfl
  entries hmem := by
    obtain ⟨hold, hcovers⟩ := mem_invalidate.1 hmem
    exact (h.entries hold).snoc hcovers
  flights {flight} hmem := by
    have hsound := h.flights hmem
    refine ⟨hsound.generation, Nat.le_succ_of_le hsound.begun_le, ?_⟩
    -- no lookup in flight is of the generation that starts here
    rintro ticket begun membership rfl hsame
    have hpast : begun ≤ t.invalidations := hsound.begun_le
    have hpresent : begun = t.invalidations + 1 := hsame
    omega

/-- Every move keeps what is cached and what may come to be cached sound, as long as the
lookups are in time. -/
theorem Sound.step (h : Sound start moves (start.run moves)) (htime : InTime (start.run moves))
    (move : Move) : Sound start (moves ++ [move]) ((start.run moves).step move) := by
  cases move with
  | begin key => exact h.step_begin
  | read index => exact h.step_read index
  | finish index pause => exact h.step_finish htime index pause
  | fail index =>
      exact h.step_of_subset (fun _ => rfl) rfl rfl (List.Subset.refl _) List.eraseIdx_subset
  | change held =>
      exact h.step_of_subset (fun _ => rfl) rfl rfl (List.Subset.refl _) (List.Subset.refl _)
  | invalidate scope => exact h.step_invalidate scope
  | purge =>
      exact h.step_of_subset (fun _ => rfl) generation_purge rfl
        (fun _ hmem => (mem_purge.1 hmem).1) (List.Subset.refl _)
  | advance span =>
      exact h.step_of_subset (fun _ => rfl) rfl rfl (List.Subset.refl _) (List.Subset.refl _)

/-- Whatever moves are made in front of an empty cache, if the lookups are in time. -/
theorem sound_run (ttl now : Nat) (held : MemberKey → Option Membership) (moves : List Move)
    (hunlapped : Unlapped (.start ttl now held) moves) :
    Sound (.start ttl now held) moves ((Traffic.start ttl now held).run moves) := by
  induction moves using List.reverseRecOn with
  | nil => exact sound_start
  | append_singleton moves move ih =>
      rw [Traffic.run_append_singleton]
      have htime := hunlapped moves (List.prefix_append moves [move])
      exact (ih hunlapped.of_snoc).step htime move

-- ===================================================== nothing stale

/-- However lookups, changes of the store, invalidations, purges and time interleave, if
no lookup is in flight for 2^64 invalidations, then what is cached for a key was held by
the store at a moment not before the last invalidation that covers the key. So if the
store has held nothing else for the key since then, a hit is on what it holds now. -/
theorem cached_since_invalidation (ttl now : Nat) (held : MemberKey → Option Membership)
    (moves : List Move) (hunlapped : Unlapped (.start ttl now held) moves) :
    (∀ key entry, ((Traffic.start ttl now held).run moves).cache.entry? key = some entry →
        HeldSince (.start ttl now held) moves key entry.membership)
      ∧ ∀ key membership,
          (∀ past, HeldSince (.start ttl now held) moves key past →
            past = ((Traffic.start ttl now held).run moves).held key) →
          (((Traffic.start ttl now held).run moves).cache.begin
            ((Traffic.start ttl now held).run moves).now key).1 = .hit membership →
          membership = ((Traffic.start ttl now held).run moves).held key := by
  have hsound := sound_run ttl now held moves hunlapped
  have hcached : ∀ key entry,
      ((Traffic.start ttl now held).run moves).cache.entry? key = some entry →
      HeldSince (.start ttl now held) moves key entry.membership :=
    fun key entry hentry => hsound.entries (mem_of_found hentry)
  refine ⟨hcached, fun key membership hsteady hhit => ?_⟩
  obtain ⟨entry, hentry, -, rfl⟩ := begin_eq_hit hhit
  exact hsteady entry.membership (hcached key entry hentry)

/-- Someone who has joined a project. -/
def joined : Membership := .new ⟨1⟩ (.new ⟨3⟩ ⟨2⟩ "Back" ["view_project"])

/-- Two lookups of one key. The first is told that there is no membership; then there
is one, and an invalidation; the second is told of it, and both finish. -/
def overtaking : List Move :=
  [.begin joined.key, .read 0, .change fun key => if key = joined.key then some joined else none]
    ++ .invalidate (.member joined.key)
      :: [.begin joined.key, .read 1, .finish 0 0, .finish 0 0]

/-- There is one invalidation only. The store has held nothing else since, and what is
cached in the end is what the second lookup was told. -/
theorem hit_after_overtaking :
    Unlapped (.start 60000 0 fun _ => none) overtaking
      ∧ (∀ past, HeldSince (.start 60000 0 fun _ => none) overtaking joined.key past →
        past = some joined)
      ∧ (((Traffic.start 60000 0 fun _ => none).run overtaking).cache.begin
          ((Traffic.start 60000 0 fun _ => none).run overtaking).now joined.key).1
          = .hit (some joined)
      ∧ some joined = ((Traffic.start 60000 0 fun _ => none).run overtaking).held joined.key := by
  have hunlapped : Unlapped (.start 60000 0 fun _ => none) overtaking :=
    unlapped_of_few (by decide)
  have hsteady : ∀ past, HeldSince (.start 60000 0 fun _ => none) overtaking joined.key past →
      past = some joined := by
    intro past hpast
    rw [hpast.eq_of_unchanged rfl (by simp [Move.isChange])]
    rfl
  have hhit : (((Traffic.start 60000 0 fun _ => none).run overtaking).cache.begin
      ((Traffic.start 60000 0 fun _ => none).run overtaking).now joined.key).1
      = .hit (some joined) := rfl
  exact ⟨hunlapped, hsteady, hhit,
    (cached_since_invalidation 60000 0 (fun _ => none) overtaking hunlapped).2 joined.key
      (some joined) hsteady hhit⟩

-- =========================================================== the bound

/-- A lookup is told what the store holds, the store comes to hold something else, and
before the lookup finishes there are so many invalidations. -/
def lapped (key : MemberKey) (held : MemberKey → Option Membership) (scope : Scope) (n : Nat) :
    List Move :=
  [.begin key, .read 0, .change held] ++ List.replicate n (.invalidate scope) ++ [.finish 0 0]

/-- The lookup of `lapped` before it finishes. Its ticket has the word of the first
generation, and the cache that of the last. -/
theorem run_replicate_invalidate {ttl now : Nat} {held held' : MemberKey → Option Membership}
    {scope : Scope} {n : Nat} :
    (Traffic.start ttl now held).run
        ([.begin key, .read 0, .change held'] ++ List.replicate n (.invalidate scope))
      = ⟨⟨ttl, [], UInt64.ofNat n, 0⟩, now, held', n, [.told ⟨key, 0⟩ 0 (held key)]⟩ := by
  induction n with
  | zero => rfl
  | succ n ih =>
      rw [List.replicate_succ', ← List.append_assoc, Traffic.run_append_singleton, ih,
        UInt64.ofNat_add]
      rfl

/-- The bound is needed: a lookup that finishes when the word has gone round, once or more
often, leaves what the store has not held since the last invalidation. -/
theorem stale_of_lapped {ttl now : Nat} {held held' : MemberKey → Option Membership}
    {scope : Scope} {n : Nat} (hcovers : scope.covers key = true)
    (hchanged : held' key ≠ held key) (hpos : 0 < n) (hround : UInt64.size ∣ n) :
    ((Traffic.start ttl now held).run (lapped key held' scope n)).cache.entry? key
        = some ⟨held key, now + ttl⟩
      ∧ ¬ HeldSince (.start ttl now held) (lapped key held' scope n) key (held key) := by
  have hword : UInt64.ofNat n = 0 := by
    obtain ⟨rounds, rfl⟩ := hround
    rw [UInt64.ofNat_mul]
    exact UInt64.zero_mul
  constructor
  · unfold lapped
    rw [Traffic.run_append_singleton, run_replicate_invalidate, hword]
    exact List.lookup_cons_self
  · intro hpast
    obtain ⟨m, rfl⟩ := Nat.exists_eq_add_one.2 hpos
    have hsince : HeldSince (.start ttl now held)
        ([.begin key, .read 0, .change held'] ++ .invalidate scope
          :: (List.replicate m (.invalidate scope) ++ [.finish 0 0])) key (held key) := by
      unfold lapped at hpast
      rwa [List.replicate_succ, List.append_assoc, List.cons_append] at hpast
    refine hchanged (hsince.eq_of_unchanged hcovers ?_).symm
    intro move hmove
    rcases List.mem_append.1 hmove with hmove | hmove
    · rw [List.eq_of_mem_replicate hmove]
      rfl
    · rw [List.mem_singleton.1 hmove]
      rfl

end Cache

end ProjectAccess
