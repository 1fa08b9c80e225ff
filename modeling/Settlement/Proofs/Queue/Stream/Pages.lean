import Settlement.Queue.Stream

/-!
# Pages as they are sent

A server sends entries in an answer of nested lists: the stream by its name, the entries by their
ids, and the fields two by two. Every page can be sent so, and is read as it was
(`readEntries_pageReply`). An answer to a take-over says before the entries where the next one goes
on, and is read as it was as well (`readTakeOver_takeOverReply`).
-/

namespace Settlement.Queue.Stream

open Redis (Reply)

/-- The fields of an entry as the server sends them. -/
def fieldsReply (fields : List (String × Reply)) : Reply :=
  .bulk (fields.flatMap fun field => [.data field.1.toUTF8, field.2])

def entryReply (e : Entry) : Reply := .bulk [.data e.id.toUTF8, fieldsReply e.fields]

/-- A page as the server sends it. -/
def pageReply (queue : String) (page : List Entry) : Reply :=
  .bulk [.bulk [.data queue.toUTF8, .bulk (page.map entryReply)]]

theorem text?_data (s : String) : (Reply.data s.toUTF8).text? = .ok s := by
  rw [Reply.text?, fromUTF8?_toUTF8]

theorem pairs?_fields (fields : List (String × Reply)) :
    pairs? (fields.flatMap fun field => [.data field.1.toUTF8, field.2]) =
      some (fields.map fun field => (.data field.1.toUTF8, field.2)) := by
  induction fields with
  | nil => rfl
  | cons field fields ih =>
      rw [List.flatMap_cons, List.cons_append, List.singleton_append, pairs?, ih]
      rfl

theorem readField_fields (fields : List (String × Reply)) :
    (fields.map fun field => (Reply.data field.1.toUTF8, field.2)).mapM readField = .ok fields := by
  induction fields with
  | nil => rfl
  | cons field fields ih =>
      rw [List.map_cons, List.mapM_cons, ih, readField, text?_data]
      rfl

theorem readRow_entryReply (e : Entry) : readRow (entryReply e) = .ok [e] := by
  have hfields : mapPairs (fieldsReply e.fields) =
      .ok (e.fields.map fun field => (.data field.1.toUTF8, field.2)) := by
    rw [fieldsReply, mapPairs, pairs?_fields]
  have hentry : readEntry (.data e.id.toUTF8, fieldsReply e.fields) = .ok e := by
    rw [readEntry, text?_data, hfields]
    simp only [bind, Except.bind]
    rw [readField_fields]
    rfl
  rw [readRow, entryReply, mapPairs]
  simp only [pairs?, Option.map_some, bind, Except.bind]
  rw [List.mapM_cons, hentry]
  rfl

/-- The server can send every page. -/
theorem readEntries_pageReply (queue : String) (page : List Entry) :
    readEntries (pageReply queue page) = .ok page := by
  have hrows : (page.map entryReply).mapM readRow = .ok (page.map fun e => [e]) := by
    induction page with
    | nil => rfl
    | cons e page ih =>
        rw [List.map_cons, List.mapM_cons, readRow_entryReply, ih]
        rfl
  have hstream : readStream (.data queue.toUTF8, .bulk (page.map entryReply)) = .ok page := by
    rw [readStream, text?_data]
    simp only [bind, Except.bind, elements]
    rw [hrows]
    exact congrArg Except.ok (List.flatMap_singleton' page)
  rw [readEntries, pageReply]
  simp only [bind, Except.bind, elements]
  rw [List.mapM_cons, readStreams, mapPairs]
  simp only [pairs?, Option.map_some, bind, Except.bind]
  rw [List.mapM_cons, hstream]
  exact congrArg Except.ok (by simp)

/-- Entries that were taken over as the server sends them, behind the place where the next take-over
goes on. -/
def takeOverReply (next : String) (page : List Entry) : Reply :=
  .bulk [.data next.toUTF8, .bulk (page.map entryReply)]

theorem wholePairs_fields (fields : List (String × Reply)) :
    wholePairs (fields.flatMap fun field => [.data field.1.toUTF8, field.2]) =
      fields.map fun field => (.data field.1.toUTF8, field.2) := by
  induction fields with
  | nil => rfl
  | cons field fields ih =>
      rw [List.flatMap_cons, List.cons_append, List.singleton_append, wholePairs, ih]
      rfl

theorem readTaken_entryReply (e : Entry) : readTaken (entryReply e) = .ok (some e) := by
  have hfields : takenFields [fieldsReply e.fields] = .ok e.fields := by
    rw [fieldsReply, takenFields, wholePairs_fields, readField_fields]
  rw [entryReply, readTaken, text?_data, hfields]
  rfl

/-- The server can hand over every page, whatever comes next. -/
theorem readTakeOver_takeOverReply (next : String) (page : List Entry) :
    readTakeOver (takeOverReply next page) = .ok (next, page) := by
  have htaken : (page.map entryReply).mapM readTaken = .ok (page.map some) := by
    induction page with
    | nil => rfl
    | cons e page ih =>
        rw [List.map_cons, List.mapM_cons, readTaken_entryReply, ih]
        rfl
  rw [takeOverReply, readTakeOver, text?_data]
  simp only [bind, Except.bind]
  rw [htaken]
  exact congrArg (fun page => Except.ok (next, page)) (by simp)

end Settlement.Queue.Stream
