import Mathlib.Data.List.Pairwise
import Mathlib.Order.Lattice
import Settlement.Queue.Stream

/-!
# A backlog that is read page by page

The entries that are pending for a consumer are read a page at a time, each page behind the last
entry of the one before, until a page is empty (`Trail`). The order of the ids is that of their
places. Entries may be acknowledged between the reads, so the pages need not be what was pending at
the beginning.

The pages together are in order, with no entry twice (`inOrder_returned`). Every entry that the
reads have come past is covered by one of them (`exists_covers`), and it was returned if and only if
it was pending at that read (`mem_returned_iff`).
-/

namespace Settlement.Queue.Stream

section

variable {α : Type} [LinearOrder α] (place : String → α)

/-- The entries are in the order of their ids, each id once. -/
def InOrder (entries : List Entry) : Prop :=
  entries.Pairwise fun e e' => place e.id < place e'.id

/-- A read of at most `count` pending entries behind an id, with what was pending then. -/
structure PendingRead where
  after : String
  count : Nat
  pending : List Entry

namespace PendingRead

/-- What the read returns. -/
def page (read : PendingRead) : List Entry :=
  (read.pending.filter fun e => place read.after < place e.id).take read.count

/-- The id of the last entry that the read returns. -/
def last (read : PendingRead) : Option String := (read.page place).getLast?.map (·.id)

/-- The entry is one that this read comes past: it lies behind the place where the read starts, and
not behind its last entry. A read without an entry comes past everything. -/
def Covers (read : PendingRead) (e : Entry) : Prop :=
  place read.after < place e.id ∧ ∀ last ∈ read.last place, place e.id ≤ place last

end PendingRead

/-- The reads of a backlog, of which only entries of `initial` are pending: each one goes on where
the one before came to, which is behind the id given last, and none goes on behind an empty page. -/
inductive Trail (initial : List Entry) : List PendingRead → Option String → Prop
  | start : Trail initial [] (some replayStart)
  | next {reads : List PendingRead} {read : PendingRead}
      (before : Trail initial reads (some read.after)) (positive : 0 < read.count)
      (held : read.pending.Sublist initial) :
      Trail initial (reads ++ [read]) (read.last place)

/-- What reads return together. -/
def returned (reads : List PendingRead) : List Entry := reads.flatMap (·.page place)

/-- The number of entries behind an id. -/
def behind (entries : List Entry) (after : String) : Nat :=
  entries.countP fun e => place after < place e.id

end

section

variable {α : Type} [LinearOrder α] {place : String → α} {read : PendingRead} {e : Entry}
  {last : String}

namespace PendingRead

theorem mem_page (h : e ∈ read.page place) : e ∈ read.pending ∧ place read.after < place e.id := by
  simpa using List.mem_of_mem_take h

theorem page_sublist : (read.page place).Sublist read.pending :=
  (List.take_sublist _ _).trans List.filter_sublist

theorem last_eq_none : read.last place = none ↔ read.page place = [] := by
  rw [last, Option.map_eq_none_iff, List.getLast?_eq_none_iff]

/-- The last id is that of an entry on the page, and all others stand before it. -/
theorem of_last (sorted : InOrder place read.pending) (h : read.last place = some last) :
    (∃ e ∈ read.page place, e.id = last) ∧ ∀ e ∈ read.page place, place e.id ≤ place last := by
  obtain ⟨final, hfinal, rfl⟩ := Option.map_eq_some_iff.1 h
  refine ⟨⟨final, List.mem_of_getLast? hfinal, rfl⟩, fun e he => ?_⟩
  have hpage : InOrder place (read.page place) := sorted.sublist page_sublist
  obtain ⟨front, hfront⟩ := List.getLast?_eq_some_iff.1 hfinal
  rw [hfront, List.mem_append, List.mem_singleton] at he
  rw [InOrder, hfront, List.pairwise_append] at hpage
  rcases he with he | rfl
  · exact (hpage.2.2 e he final (List.mem_singleton_self _)).le
  · exact le_rfl

/-- A read starts before its last entry. -/
theorem after_lt (sorted : InOrder place read.pending) (h : read.last place = some last) :
    place read.after < place last := by
  obtain ⟨⟨e, he, rfl⟩, -⟩ := of_last sorted h
  exact (mem_page he).2

/-- An entry that a read comes past is on the page if it is pending. -/
theorem mem_page_iff (sorted : InOrder place read.pending) (positive : 0 < read.count)
    (covers : read.Covers place e) : e ∈ read.page place ↔ e ∈ read.pending := by
  refine ⟨fun h => (mem_page h).1, fun h => ?_⟩
  have hbehind : e ∈ read.pending.filter fun e => place read.after < place e.id :=
    List.mem_filter.2 ⟨h, by simpa using covers.1⟩
  rw [← List.take_append_drop read.count (List.filter _ _), List.mem_append] at hbehind
  refine hbehind.resolve_right fun hdrop => ?_
  -- A page that leaves something out is full, and its last entry stands before what is left out.
  have hsplit := sorted.filter fun e => decide (place read.after < place e.id)
  rw [← List.take_append_drop read.count (List.filter _ _), List.pairwise_append] at hsplit
  have hlong := List.length_pos_of_mem hdrop
  rw [List.length_drop] at hlong
  have hfull : read.page place ≠ [] := by
    rw [page, ne_eq, List.take_eq_nil_iff, not_or]
    exact ⟨Nat.ne_of_gt positive, List.ne_nil_of_length_pos (by omega)⟩
  obtain ⟨final, hfinal⟩ := Option.ne_none_iff_exists'.1 (mt List.getLast?_eq_none_iff.1 hfull)
  have hlast : read.last place = some final.id := by
    rw [last, hfinal, Option.map_some]
  exact absurd (covers.2 _ hlast)
    (hsplit.2.2 final (List.mem_of_getLast? hfinal) e hdrop).not_ge

end PendingRead

variable {initial : List Entry} {reads : List PendingRead} {cursor : Option String} {after : String}

theorem returned_append (reads : List PendingRead) (read : PendingRead) :
    returned place (reads ++ [read]) = returned place reads ++ read.page place := by
  rw [returned, List.flatMap_append, List.flatMap_singleton, ← returned]

/-- A read that returns something leaves less behind it. -/
theorem behind_lt (sorted : InOrder place initial) (held : read.pending.Sublist initial)
    (h : read.last place = some last) :
    behind place initial last < behind place initial read.after := by
  obtain ⟨⟨e, he, rfl⟩, -⟩ := PendingRead.of_last (sorted.sublist held) h
  obtain ⟨hmem, hafter⟩ := PendingRead.mem_page he
  obtain ⟨front, rest, rfl⟩ := List.append_of_mem (held.mem hmem)
  have hfront : ∀ entries : List Entry, entries.countP (fun e' => place e.id < place e'.id) ≤
      entries.countP fun e' => place read.after < place e'.id := fun entries =>
    List.countP_mono_left fun e' _ h => by
      simp only [decide_eq_true_eq] at h ⊢
      exact hafter.trans h
  simp only [behind, List.countP_append, List.countP_cons, decide_eq_true_eq, lt_irrefl,
    hafter, if_true, if_false]
  have := hfront front
  have := hfront rest
  omega

namespace Trail

theorem positive (trail : Trail place initial reads cursor) (h : read ∈ reads) :
    0 < read.count := by
  induction trail with
  | start => cases h
  | next before positive held ih =>
      rcases List.mem_append.1 h with h | h
      · exact ih h
      · rwa [List.mem_singleton.1 h]

theorem held (trail : Trail place initial reads cursor) (h : read ∈ reads) :
    read.pending.Sublist initial := by
  induction trail with
  | start => cases h
  | next before positive held ih =>
      rcases List.mem_append.1 h with h | h
      · exact ih h
      · rwa [List.mem_singleton.1 h]

/-- The reads have come to the place where they go on. -/
theorem le_of_mem (sorted : InOrder place initial)
    (trail : Trail place initial reads (some after)) :
    ∀ read ∈ reads, ∃ last, read.last place = some last ∧ place last ≤ place after := by
  generalize hcursor : some after = cursor at trail
  induction trail generalizing after with
  | start => simp
  | @next reads read before positive held ih =>
      intro read' h
      rcases List.mem_append.1 h with h | h
      · obtain ⟨last, hlast, hle⟩ := ih rfl read' h
        exact ⟨last, hlast, hle.trans (PendingRead.after_lt (sorted.sublist held) hcursor.symm).le⟩
      · obtain rfl := List.mem_singleton.1 h
        exact ⟨after, hcursor.symm, le_rfl⟩

theorem returned_le (sorted : InOrder place initial)
    (trail : Trail place initial reads (some after)) (h : e ∈ returned place reads) :
    place e.id ≤ place after := by
  obtain ⟨read, hread, he⟩ := List.mem_flatMap.1 h
  obtain ⟨last, hlast, hle⟩ := trail.le_of_mem sorted read hread
  exact ((PendingRead.of_last (sorted.sublist (trail.held hread)) hlast).2 e he).trans hle

/-- What is read is in order, no entry twice. -/
theorem inOrder_returned (sorted : InOrder place initial)
    (trail : Trail place initial reads cursor) : InOrder place (returned place reads) := by
  induction trail with
  | start => exact List.Pairwise.nil
  | @next reads read before positive held ih =>
      have hpage : InOrder place (read.page place) :=
        sorted.sublist (PendingRead.page_sublist.trans held)
      rw [returned_append]
      refine List.pairwise_append.2 ⟨ih, hpage, fun e he e' he' => ?_⟩
      exact (before.returned_le sorted he).trans_lt (PendingRead.mem_page he').2

/-- Every entry that the reads have come past is covered by one of them. -/
theorem exists_covers (trail : Trail place initial reads cursor)
    (first : place replayStart < place e.id)
    (past : ∀ after ∈ cursor, place e.id ≤ place after) : ∃ read ∈ reads, read.Covers place e := by
  induction trail with
  | start => exact absurd first (past _ rfl).not_gt
  | @next reads read before positive held ih =>
      rcases lt_or_ge (place read.after) (place e.id) with hlt | hle
      · exact ⟨read, List.mem_append_right _ List.mem_cons_self, hlt, past⟩
      · obtain ⟨read', hread', covers⟩ := ih fun after h => Option.mem_some_iff.1 h ▸ hle
        exact ⟨read', List.mem_append_left _ hread', covers⟩

/-- An entry was returned if and only if it was pending at the read that covers it. -/
theorem mem_returned_iff (sorted : InOrder place initial)
    (trail : Trail place initial reads cursor) (h : read ∈ reads) (covers : read.Covers place e) :
    e ∈ returned place reads ↔ e ∈ read.pending := by
  induction trail with
  | start => cases h
  | @next reads read' before positive held ih =>
      rw [returned_append, List.mem_append]
      rcases List.mem_append.1 h with h | h
      · obtain ⟨last, hlast, hle⟩ := before.le_of_mem sorted read h
        have hold : e ∉ read'.page place := fun he =>
          (PendingRead.mem_page he).2.not_ge ((covers.2 last hlast).trans hle)
        rw [or_iff_left hold]
        exact ih h
      · obtain rfl := List.mem_singleton.1 h
        have hnew : e ∉ returned place reads := fun he =>
          covers.1.not_ge (before.returned_le sorted he)
        rw [or_iff_right hnew]
        exact PendingRead.mem_page_iff (sorted.sublist held) positive covers

/-- Reads that do not go on have come to an empty page. -/
theorem exists_empty (trail : Trail place initial reads none) :
    ∃ read ∈ reads, read.page place = [] := by
  generalize hcursor : (none : Option String) = cursor at trail
  cases trail with
  | start => cases hcursor
  | @next reads read before positive held =>
      exact ⟨read, List.mem_append_right _ List.mem_cons_self,
        PendingRead.last_eq_none.1 hcursor.symm⟩

end Trail

end

end Settlement.Queue.Stream
