import Settlement.Json.Record

/-!
# Records in objects

An object whose names are all different is a record when it has the required fields, the fields that
it has can be read, and nothing else in it is noticed by a reader that skips it (`Record.Accepts`).
The fields are then found under their names, in whatever order they stand (`docs_of_accepts`).
-/

namespace Settlement.Json

/-- The members of an object without a fault. -/
def Fields.ofMembers : List (String × Doc) → Fields
  | [] => .close
  | (name, doc) :: rest => .cons (.ok name) doc (ofMembers rest)

/-- The elements of an array without a fault. -/
def Items.ofList : List Doc → Items
  | [] => .close
  | item :: rest => .cons item (ofList rest)

namespace Record

/-- The members are those of a record. -/
structure Accepts (r : Record) (members : List (String × Doc)) : Prop where
  once : (members.map Prod.fst).Nodup
  known : ∀ field ∈ r.fields, ∀ doc, (field.name, doc) ∈ members → field.check doc = .ok ()
  other : ∀ name doc, (name, doc) ∈ members → r.field? name = none → doc.skip = .ok ()
  present : ∀ field ∈ r.fields, field.presence = .required → ∃ doc, (field.name, doc) ∈ members

variable {r : Record} {members : List (String × Doc)}

theorem field?_isSome {field : Field} (h : field ∈ r.fields) :
    (r.field? field.name).isSome = true :=
  List.find?_isSome.2 ⟨field, h, decide_eq_true rfl⟩

theorem of_field? {name : String} {field : Field} (h : r.field? name = some field) :
    field ∈ r.fields ∧ field.name = name :=
  ⟨List.mem_of_find?_eq_some h, by simpa using List.find?_some h⟩

theorem lookup_cons_of_ne {β : Type} {members : List (String × β)} {name : String}
    {member : String × β} (h : name ≠ member.1) :
    (member :: members).lookup name = members.lookup name := by
  rw [List.lookup_cons, beq_false_of_ne h]

/-- A member that was not seen is seen before the others as well as found first behind them. -/
theorem lookup_cons_or {β : Type} {seen members : List (String × β)} {name : String}
    (unseen : seen.lookup name = none) (doc : β) (other : String) :
    (List.lookup other ((name, doc) :: seen)).or (members.lookup other) =
      (seen.lookup other).or (List.lookup other ((name, doc) :: members)) := by
  by_cases h : other = name
  · rw [h, List.lookup_cons_self, List.lookup_cons_self, unseen]
    rfl
  · rw [lookup_cons_of_ne h, lookup_cons_of_ne h]

theorem lookup_of_mem {β : Type} {members : List (String × β)}
    (once : (members.map Prod.fst).Nodup) {name : String} {doc : β}
    (h : (name, doc) ∈ members) : members.lookup name = some doc := by
  induction members with
  | nil => cases h
  | cons member members ih =>
      obtain ⟨fresh, once⟩ := List.nodup_cons.1 once
      rcases List.mem_cons.1 h with rfl | h
      · exact List.lookup_cons_self
      · have hne : name ≠ member.1 := by
          rintro rfl
          exact fresh (List.mem_map.2 ⟨_, h, rfl⟩)
        rw [lookup_cons_of_ne hne]
        exact ih once h

theorem eq_of_mem {β : Type} {members : List (String × β)} (once : (members.map Prod.fst).Nodup)
    {name : String} {doc other : β} (h : (name, doc) ∈ members) (h' : (name, other) ∈ members) :
    doc = other :=
  Option.some.inj ((lookup_of_mem once h).symm.trans (lookup_of_mem once h'))

theorem ne_of_field? {name : String} (h : r.field? name = none) {field : Field}
    (hmem : field ∈ r.fields) : name ≠ field.name := by
  have := List.find?_eq_none.1 h field hmem
  rintro rfl
  simp at this

theorem mem_of_lookup {name : String} {doc : Doc} (h : members.lookup name = some doc) :
    (name, doc) ∈ members := by
  induction members with
  | nil => cases h
  | cons member members ih =>
      rw [List.lookup_cons] at h
      split at h
      next heq =>
        obtain rfl := Option.some.inj h
        rw [eq_of_beq heq]
        exact List.mem_cons_self
      next => exact List.mem_cons_of_mem _ (ih h)

/-- The members of a record of two fields. -/
theorem accepts_pair (name : String) {first second : Field} (once : (members.map Prod.fst).Nodup)
    (known : ∀ doc, (first.name, doc) ∈ members → first.check doc = .ok ())
    (known' : ∀ doc, (second.name, doc) ∈ members → second.check doc = .ok ())
    (other : ∀ name doc, (name, doc) ∈ members → name ≠ first.name → name ≠ second.name →
      doc.skip = .ok ())
    (present : first.presence = .required → ∃ doc, (first.name, doc) ∈ members)
    (present' : second.presence = .required → ∃ doc, (second.name, doc) ∈ members) :
    Accepts ⟨name, [first, second]⟩ members where
  once := once
  known := List.forall_mem_cons.2 ⟨known, List.forall_mem_singleton.2 known'⟩
  other name doc h unknown := other name doc h (ne_of_field? unknown List.mem_cons_self)
    (ne_of_field? unknown (List.mem_cons_of_mem _ List.mem_cons_self))
  present := List.forall_mem_cons.2 ⟨present, List.forall_mem_singleton.2 present'⟩

/-- The members whose names are fields. -/
def own (r : Record) (members : List (String × Doc)) : List (String × Doc) :=
  members.filter fun member => (r.field? member.1).isSome

theorem own_sublist : List.Sublist (r.own members) members := List.filter_sublist

theorem mem_own {name : String} (known : (r.field? name).isSome = true) {doc : Doc} :
    (name, doc) ∈ r.own members ↔ (name, doc) ∈ members :=
  List.mem_filter.trans (and_iff_left known)

/-- The fields are gathered behind the ones that have been seen. -/
theorem inText_ofMembers (once : ((r.own members).map Prod.fst).Nodup)
    (known : ∀ field ∈ r.fields, ∀ doc, (field.name, doc) ∈ r.own members →
      field.check doc = .ok ())
    (other : ∀ name doc, (name, doc) ∈ members → r.field? name = none → doc.skip = .ok ()) :
    ∀ seen : FieldDocs, (∀ name ∈ (r.own members).map Prod.fst, seen.lookup name = none) →
      ∃ docs, r.inText seen (.ofMembers members) = .ok docs ∧
        ∀ name, (r.field? name).isSome = true →
          docs.lookup name = (seen.lookup name).or ((r.own members).lookup name) := by
  induction members with
  | nil => exact fun seen _ => ⟨seen, rfl, fun name _ => (Option.or_none).symm⟩
  | cons member members ih =>
      intro seen unseen
      obtain ⟨name, doc⟩ := member
      have later := fun name doc h => other name doc (List.mem_cons_of_mem _ h)
      rw [Fields.ofMembers, inText]
      simp only [bind, Except.bind]
      cases hfield : r.field? name with
      | none =>
          have hown : r.own ((name, doc) :: members) = r.own members :=
            List.filter_cons_of_neg (by simp [hfield])
          rw [hown] at once known unseen ⊢
          rw [other name doc List.mem_cons_self hfield]
          exact ih once known later seen unseen
      | some field =>
          have hown : r.own ((name, doc) :: members) = (name, doc) :: r.own members :=
            List.filter_cons_of_pos (by simp [hfield])
          rw [hown] at once known unseen ⊢
          obtain ⟨fresh, once⟩ := List.nodup_cons.1 once
          obtain ⟨hmem, hname⟩ := of_field? hfield
          have hunseen := unseen name List.mem_cons_self
          have hcheck := known field hmem doc (hname ▸ List.mem_cons_self)
          simp only [hunseen, Option.isSome_none, Bool.false_eq_true, if_false, hcheck]
          have hfresh : ∀ other ∈ (r.own members).map Prod.fst,
              List.lookup other ((name, doc) :: seen) = none := by
            intro other h
            have hne : other ≠ name := by
              rintro rfl
              exact fresh h
            rw [lookup_cons_of_ne hne]
            exact unseen other (List.mem_cons_of_mem _ h)
          obtain ⟨docs, hdocs, hlookup⟩ :=
            ih once (fun field hfield doc h => known field hfield doc (List.mem_cons_of_mem _ h))
              later ((name, doc) :: seen) hfresh
          refine ⟨docs, hdocs, fun known hknown => ?_⟩
          exact (hlookup known hknown).trans (lookup_cons_or hunseen doc known)

/-- The fields of a record are found in an object under their names, if each is there once; members
of other names may repeat each other. -/
theorem docs_of_own (once : ((r.own members).map Prod.fst).Nodup)
    (known : ∀ field ∈ r.fields, ∀ doc, (field.name, doc) ∈ r.own members →
      field.check doc = .ok ())
    (other : ∀ name doc, (name, doc) ∈ members → r.field? name = none → doc.skip = .ok ())
    (present : ∀ field ∈ r.fields, field.presence = .required →
      ∃ doc, (field.name, doc) ∈ r.own members) (source : Source) :
    ∃ docs, r.docs source (.object (.ofMembers members)) = .ok docs ∧
      ∀ name ∈ r.fields.map Field.name, docs.lookup name = (r.own members).lookup name := by
  obtain ⟨docs, hdocs, hlookup⟩ := inText_ofMembers once known other [] fun _ _ => rfl
  have found : ∀ field ∈ r.fields, docs.lookup field.name = (r.own members).lookup field.name :=
    fun field h => hlookup field.name (field?_isSome h)
  have hmissing : r.missing? docs = none := by
    refine List.find?_eq_none.2 fun field hmem => ?_
    simp only [Bool.and_eq_true, decide_eq_true_eq, not_and, Bool.not_eq_true]
    intro hrequired
    obtain ⟨doc, hdoc⟩ := present field hmem hrequired
    rw [found field hmem, lookup_of_mem once hdoc]
    rfl
  refine ⟨docs, ?_, List.forall_mem_map.2 found⟩
  rw [Record.docs, hdocs]
  simp only [bind, Except.bind, hmissing]
  rfl

theorem lookup_own {name : String} (known : (r.field? name).isSome = true) :
    (r.own members).lookup name = members.lookup name := by
  induction members with
  | nil => rfl
  | cons member members ih =>
      rw [own, List.filter_cons, ← own]
      split
      · rw [List.lookup_cons, List.lookup_cons, ih]
      next hother =>
        have hne : name ≠ member.1 := by
          rintro rfl
          exact hother known
        rw [lookup_cons_of_ne hne, ih]

/-- The fields of a record are found in an object under their names. -/
theorem docs_of_accepts (accepts : r.Accepts members) (source : Source) :
    ∃ docs, r.docs source (.object (.ofMembers members)) = .ok docs ∧
      ∀ name ∈ r.fields.map Field.name, docs.lookup name = members.lookup name := by
  have mem_own : ∀ field ∈ r.fields, ∀ doc,
      (field.name, doc) ∈ r.own members ↔ (field.name, doc) ∈ members :=
    fun field h doc => mem_own (field?_isSome h)
  obtain ⟨docs, hdocs, found⟩ := docs_of_own (accepts.once.sublist (own_sublist.map _))
    (fun field h doc hdoc => accepts.known field h doc ((mem_own field h doc).1 hdoc))
    accepts.other
    (fun field h required => (accepts.present field h required).imp fun doc hdoc =>
      (mem_own field h doc).2 hdoc) source
  refine ⟨docs, hdocs, List.forall_mem_map.2 fun field h => ?_⟩
  rw [found field.name (List.mem_map_of_mem h), lookup_own (field?_isSome h)]

end Record

end Settlement.Json
