import Settlement.Proofs.Locks.Answers

/-!
# What has been done with a table of locks

Leases are taken of a table that was empty at first and are given back to it, late, twice or never,
at times that do not decrease (`History`). A lease is live until its time is over or it is given
back. The table records for each key at most one lease, which may have ended; what matters is that
a live lease is always the recorded one (`Faithful.current`), and that what is recorded has not been
given back (`Faithful.recorded`). So a key is granted exactly when none of its leases is live, and
a lease that comes back late finds its key with another holder, or with none.
-/

namespace Settlement.LockTable

/-- Something that was done: a lease was taken at an instant for a time, or refused, or a lease was
given back. -/
inductive Deed where
  | granted (lease : Lease) (since : Instant) (ttl : Duration)
  | refused (key : String) (since : Instant) (ttl : Duration)
  | returned (lease : Lease)
  deriving DecidableEq

/-- What taking the lock of a key has come to. -/
def Deed.ofAcquire (key : String) (now : Instant) (ttl : Duration) : Option Lease → Deed
  | some lease => .granted lease now ttl
  | none => .refused key now ttl

/-- The table, and all that was done with it until now, the latest deed first. Any lease that was
ever granted can be given back, again and again. -/
inductive History : LockTable → Instant → List Deed → Prop
  | start (now : Instant) : History .empty now []
  | wait {locks : LockTable} {now later : Instant} {deeds : List Deed}
      (history : History locks now deeds) (le : now ≤ later) : History locks later deeds
  | acquire {locks : LockTable} {now : Instant} {deeds : List Deed} (key : String) (ttl : Duration)
      (history : History locks now deeds) :
      History (locks.acquire now key ttl).2 now
        (.ofAcquire key now ttl (locks.acquire now key ttl).1 :: deeds)
  | release {locks : LockTable} {now since : Instant} {deeds : List Deed} {lease : Lease}
      {ttl : Duration} (history : History locks now deeds)
      (issued : .granted lease since ttl ∈ deeds) :
      History (locks.release lease) now (.returned lease :: deeds)

/-- The lease has neither been given back nor come to its end: taken at `since` for the time `ttl`,
it lasts until just before `since + ttl`. -/
def Live (deeds : List Deed) (now : Instant) (lease : Lease) : Prop :=
  ∃ since ttl, .granted lease since ttl ∈ deeds ∧ .returned lease ∉ deeds ∧
    now < since + ttl.nanos

/-- The lease is the one that the table records for its key. -/
def Records (locks : LockTable) (lease : Lease) : Prop :=
  ∃ expires, locks.hold? lease.key = some ⟨lease.token, expires⟩

/-- What the table says of the deeds. -/
structure Faithful (locks : LockTable) (now : Instant) (deeds : List Deed) : Prop where
  issued : ∀ lease since ttl, .granted lease since ttl ∈ deeds → lease.token < locks.next
  known : ∀ lease, .returned lease ∈ deeds → lease.token < locks.next
  recorded : ∀ key hold, locks.hold? key = some hold →
    .returned ⟨key, hold.token⟩ ∉ deeds ∧
      ∃ since ttl, .granted ⟨key, hold.token⟩ since ttl ∈ deeds ∧ hold.expires = since + ttl.nanos
  current : ∀ lease since ttl, .granted lease since ttl ∈ deeds → .returned lease ∉ deeds →
    now < since + ttl.nanos → locks.hold? lease.key = some ⟨lease.token, since + ttl.nanos⟩

section

variable {locks : LockTable} {now later since : Instant} {deeds : List Deed} {key other : String}
  {ttl : Duration} {lease lease' : Lease} {hold : Hold}

/-! ## Giving back a lease, or another -/

theorem lookup_others_self : (locks.others key).lookup key = none := by
  rw [List.lookup_eq_none_iff]
  intro entry hentry
  have hne : (entry.1 != key) = true := (List.mem_filter.1 hentry).2
  rw [bne_iff_ne] at hne ⊢
  exact hne.symm

/-- The recorded lease leaves its key without a holder. -/
theorem hold?_release (h : locks.Records lease) : (locks.release lease).hold? lease.key = none := by
  obtain ⟨expires, hhold⟩ := h
  have hrelease : locks.release lease = { locks with held := locks.others lease.key } := by
    rw [release, hhold]
    exact if_pos rfl
  rw [hrelease]
  exact lookup_others_self

/-- A lease that is not recorded changes nothing at all. -/
theorem release_of_not_records (h : ¬locks.Records lease) : locks.release lease = locks := by
  unfold release
  split
  next hold hhold =>
    refine if_neg fun htoken => h ⟨hold.expires, ?_⟩
    rw [hhold, ← htoken]
  next => rfl

/-- What another lease holds stays as it is. -/
theorem hold?_release_of_other (h : locks.hold? key = some hold) (ne : ⟨key, hold.token⟩ ≠ lease) :
    (locks.release lease).hold? key = some hold := by
  by_cases hrec : locks.Records lease
  · have hkey : key ≠ lease.key := by
      intro hkey
      obtain ⟨expires, hhold⟩ := hrec
      obtain rfl := Option.some.inj ((hkey ▸ h).symm.trans hhold)
      exact ne (by rw [hkey])
    rw [hold?_release_of_ne hkey, h]
  · rw [release_of_not_records hrec, h]

/-- What is held after a lease was given back was held before, and not by that lease. -/
theorem of_hold?_release (h : (locks.release lease).hold? key = some hold) :
    locks.hold? key = some hold ∧ ⟨key, hold.token⟩ ≠ lease := by
  by_cases hrec : locks.Records lease
  · have hkey : key ≠ lease.key := by
      rintro rfl
      cases (hold?_release hrec).symm.trans h
    exact ⟨(hold?_release_of_ne hkey).symm.trans h, fun heq => hkey (congrArg Lease.key heq)⟩
  · rw [release_of_not_records hrec] at h
    refine ⟨h, ?_⟩
    rintro rfl
    exact hrec ⟨hold.expires, h⟩

theorem next_release : (locks.release lease).next = locks.next := by
  unfold release
  split
  · split <;> rfl
  · rfl

/-! ## Taking a lease -/

/-- A key that is taken gets the next token, and is held for the time that was asked for. -/
theorem acquire_free (free : locks.isHeld now key = false) :
    locks.acquire now key ttl = (some ⟨key, locks.next⟩,
      ⟨(key, ⟨locks.next, now + ttl.nanos⟩) :: locks.others key, locks.next + 1⟩) := by
  unfold acquire
  rw [if_neg (Bool.eq_false_iff.1 free)]

theorem acquire_held (held : locks.isHeld now key = true) :
    locks.acquire now key ttl = (none, locks) := by
  unfold acquire
  rw [if_pos held]

theorem hold?_acquire (free : locks.isHeld now key = false) :
    (locks.acquire now key ttl).2.hold? key = some ⟨locks.next, now + ttl.nanos⟩ := by
  rw [acquire_free free, hold?, List.lookup_cons, beq_self_eq_true]

/-! ## The table is faithful to the deeds -/

theorem faithful_empty : Faithful .empty now [] where
  issued := by simp
  known := by simp
  recorded _ _ h := by cases h
  current := by simp

namespace Faithful

theorem wait (faithful : Faithful locks now deeds) (le : now ≤ later) :
    Faithful locks later deeds where
  issued := faithful.issued
  known := faithful.known
  recorded := faithful.recorded
  current lease since ttl hgranted hkept hlater :=
    faithful.current lease since ttl hgranted hkept (Nat.lt_of_le_of_lt le hlater)

theorem refuse (faithful : Faithful locks now deeds) :
    Faithful locks now (.refused key since ttl :: deeds) where
  issued := by simpa using faithful.issued
  known := by simpa using faithful.known
  recorded := by simpa using faithful.recorded
  current := by simpa using faithful.current

/-- A key is held exactly while one of its leases is live. -/
theorem isHeld_iff (faithful : Faithful locks now deeds) :
    locks.isHeld now key = true ↔ ∃ lease, lease.key = key ∧ Live deeds now lease := by
  constructor
  · intro held
    unfold isHeld at held
    split at held
    next hold hhold =>
      obtain ⟨kept, since, ttl, granted, hexpires⟩ := faithful.recorded key hold hhold
      exact ⟨⟨key, hold.token⟩, rfl, since, ttl, granted, kept, hexpires ▸ of_decide_eq_true held⟩
    next => cases held
  · rintro ⟨lease, rfl, since, ttl, granted, kept, hnow⟩
    exact isHeld_of_hold? (faithful.current lease since ttl granted kept hnow) hnow

/-- The token that is given out next was on no lease before. -/
theorem token_ne_next (faithful : Faithful locks now deeds)
    (granted : .granted lease since ttl ∈ deeds) : lease.token ≠ locks.next :=
  Nat.ne_of_lt (faithful.issued lease since ttl granted)

theorem grant (faithful : Faithful locks now deeds) (free : locks.isHeld now key = false) :
    Faithful (locks.acquire now key ttl).2 now
      (.granted ⟨key, locks.next⟩ now ttl :: deeds) where
  issued lease since' ttl' hgranted := by
    rw [acquire_free free]
    rcases List.mem_cons.1 hgranted with hnew | hold
    · cases hnew
      exact Nat.lt_succ_self _
    · exact Nat.lt_succ_of_lt (faithful.issued lease since' ttl' hold)
  known lease hreturned := by
    rw [acquire_free free]
    exact Nat.lt_succ_of_lt (faithful.known lease (by simpa using hreturned))
  recorded name hold hhold := by
    by_cases hname : name = key
    · subst hname
      obtain rfl := Option.some.inj ((hold?_acquire free).symm.trans hhold)
      refine ⟨fun hreturned => ?_, now, ttl, List.mem_cons_self, rfl⟩
      exact Nat.lt_irrefl _ (faithful.known _ (by simpa using hreturned))
    · rw [hold?_acquire_of_ne hname] at hhold
      obtain ⟨kept, since', ttl', granted, hexpires⟩ := faithful.recorded name hold hhold
      exact ⟨by simpa using kept, since', ttl', List.mem_cons_of_mem _ granted, hexpires⟩
  current lease since' ttl' hgranted hkept hnow := by
    rcases List.mem_cons.1 hgranted with hnew | hold
    · cases hnew
      exact hold?_acquire free
    · have kept : .returned lease ∉ deeds := by simpa using hkept
      -- The key was free, so an older lease that is live is one for another key.
      have hne : lease.key ≠ key := by
        rintro rfl
        have held := faithful.isHeld_iff.2 ⟨lease, rfl, since', ttl', hold, kept, hnow⟩
        exact Bool.false_ne_true (free.symm.trans held)
      rw [hold?_acquire_of_ne hne]
      exact faithful.current lease since' ttl' hold kept hnow

theorem acquire (faithful : Faithful locks now deeds) (key : String) (ttl : Duration) :
    Faithful (locks.acquire now key ttl).2 now
      (.ofAcquire key now ttl (locks.acquire now key ttl).1 :: deeds) := by
  cases hheld : locks.isHeld now key with
  | true =>
      rw [acquire_held hheld]
      exact faithful.refuse
  | false =>
      have hgrant : Faithful (locks.acquire now key ttl).2 now
          (.granted ⟨key, locks.next⟩ now ttl :: deeds) := faithful.grant hheld
      rw [acquire_free hheld] at hgrant ⊢
      exact hgrant

theorem release (faithful : Faithful locks now deeds) (issued : .granted lease since ttl ∈ deeds) :
    Faithful (locks.release lease) now (.returned lease :: deeds) where
  issued lease' since' ttl' hgranted := by
    rw [next_release]
    exact faithful.issued lease' since' ttl' (by simpa using hgranted)
  known lease' hreturned := by
    rw [next_release]
    rcases List.mem_cons.1 hreturned with hnew | hold
    · cases hnew
      exact faithful.issued lease since ttl issued
    · exact faithful.known lease' hold
  recorded key hold hhold := by
    obtain ⟨hbefore, hne⟩ := of_hold?_release hhold
    obtain ⟨kept, since', ttl', granted, hexpires⟩ := faithful.recorded key hold hbefore
    exact ⟨by simpa using ⟨hne, kept⟩, since', ttl', List.mem_cons_of_mem _ granted, hexpires⟩
  current lease' since' ttl' hgranted hkept hnow := by
    obtain ⟨hne, kept⟩ : lease' ≠ lease ∧ .returned lease' ∉ deeds := by simpa using hkept
    have hhold := faithful.current lease' since' ttl' (by simpa using hgranted) kept hnow
    exact hold?_release_of_other hhold hne

end Faithful

/-- Whatever has been done with it, the table is faithful. -/
theorem History.faithful (history : History locks now deeds) : Faithful locks now deeds := by
  induction history with
  | start now => exact faithful_empty
  | wait _ le ih => exact ih.wait le
  | acquire key ttl _ ih => exact ih.acquire key ttl
  | release _ issued ih => exact ih.release issued

/-! ## One holder for each key -/

theorem Faithful.records (faithful : Faithful locks now deeds) (live : Live deeds now lease) :
    locks.Records lease := by
  obtain ⟨since, ttl, granted, kept, hnow⟩ := live
  exact ⟨_, faithful.current lease since ttl granted kept hnow⟩

theorem Records.unique (h : locks.Records lease) (h' : locks.Records lease')
    (hkey : lease.key = lease'.key) : lease = lease' := by
  obtain ⟨expires, hhold⟩ := h
  obtain ⟨expires', hhold'⟩ := h'
  rw [hkey, hhold'] at hhold
  obtain ⟨key, token⟩ := lease
  obtain ⟨key', token'⟩ := lease'
  cases hhold
  exact congrArg (Lease.mk · token) hkey

/-- A lease is granted exactly when its key has no live one. -/
theorem Faithful.isSome_acquire_iff (faithful : Faithful locks now deeds) :
    (locks.acquire now key ttl).1.isSome = true ↔
      ¬∃ lease, lease.key = key ∧ Live deeds now lease := by
  rw [← faithful.isHeld_iff]
  cases hheld : locks.isHeld now key with
  | true => simp [acquire_held hheld]
  | false => simp [acquire_free hheld]

theorem Faithful.new_of_acquire (faithful : Faithful locks now deeds)
    (h : (locks.acquire now key ttl).1 = some lease) :
    lease.key = key ∧
      ∀ earlier since ttl, .granted earlier since ttl ∈ deeds → earlier.token ≠ lease.token := by
  cases hheld : locks.isHeld now key with
  | true =>
      rw [acquire_held hheld] at h
      cases h
  | false =>
      rw [acquire_free hheld] at h
      cases h
      exact ⟨rfl, fun earlier since ttl granted => faithful.token_ne_next granted⟩

/-- The return of a lease frees its key exactly when it is the recorded one. -/
theorem records_iff : locks.Records lease ↔
    locks.hold? lease.key ≠ none ∧ (locks.release lease).hold? lease.key = none := by
  constructor
  · rintro ⟨expires, hhold⟩
    exact ⟨by simp [hhold], hold?_release ⟨expires, hhold⟩⟩
  · rintro ⟨hheld, hfreed⟩
    by_contra hrec
    rw [release_of_not_records hrec] at hfreed
    exact hheld hfreed

end

/-! A lease has ended and its key has been taken again when it is given back, late and twice. -/

namespace Overtaken

def ttl : Duration := .ofSecs 10

def late : Instant := (Duration.ofSecs 11).nanos

/-- The key was taken at the beginning and again after the first lease had ended. -/
def table : LockTable := ((LockTable.empty.acquire 0 "key" ttl).2.acquire late "key" ttl).2

def stale : Lease := ⟨"key", 0⟩

def current : Lease := ⟨"key", 1⟩

def deeds : List Deed :=
  [.returned stale, .returned stale, .granted current late ttl, .granted stale 0 ttl]

theorem history : History ((table.release stale).release stale) late deeds :=
  have first := (History.start 0).acquire "key" ttl
  have second := (first.wait (Nat.zero_le late)).acquire "key" ttl
  have third := second.release (show Deed.granted stale 0 ttl ∈ _ by decide)
  third.release (show Deed.granted stale 0 ttl ∈ _ by decide)

end Overtaken

end Settlement.LockTable
