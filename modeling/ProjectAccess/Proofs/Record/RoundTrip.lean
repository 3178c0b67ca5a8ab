/-
Records are read back.

`RoundTrips` is what there is to know of a pair of a writer and a reader: what was written
is read back, also after edits, and not if a key is missing. It holds of all ten kinds of
records. The readers open a record by its fields, so each proof only goes through the
fields and says why the edits of each are not noticed.
-/
import Mathlib.Logic.Relation
import ProjectAccess.Proofs.Record.Edits

namespace ProjectAccess.Record

variable {α : Type} {write : α → Value} {read : Value → Option α} {edit : α → Edit}

/-- Values are recovered from what is written of them. -/
structure RoundTrips (write : α → Value) (read : Value → Option α) (edit : α → Edit) : Prop where
  read_write : ∀ a, read (write a) = some a
  injective : Function.Injective write
  read_of_edited : ∀ a v, Relation.ReflTransGen (edit a) (write a) v → read v = some a
  read_of_lacks : ∀ a v, Lacks (write a) v → read v = none

/-- It is enough that no single edit is noticed. -/
theorem RoundTrips.of_edit (hwrite : ∀ a, read (write a) = some a)
    (hedit : ∀ a v v', edit a v v' → read v = some a → read v' = some a)
    (hlacks : ∀ a v, Lacks (write a) v → read v = none) : RoundTrips write read edit where
  read_write := hwrite
  injective a b h := by
    apply Option.some.inj
    rw [← hwrite a, ← hwrite b, h]
  read_of_edited a v h := by
    induction h with
    | refl => exact hwrite a
    | tail _ hstep ih => exact hedit a _ _ hstep ih
  read_of_lacks := hlacks

/-- It is enough that the reader takes no notice of any edit, whatever the value. -/
theorem RoundTrips.of_neutral {edit : Edit} (hwrite : ∀ a, read (write a) = some a)
    (hneutral : edit.Neutral read) (hlacks : ∀ a v, Lacks (write a) v → read v = none) :
    RoundTrips write read fun _ => edit :=
  .of_edit hwrite (fun _ v v' h hread => (hneutral v v' h).symm.trans hread) hlacks

/-- What is written as a text is read back if its words are. -/
theorem RoundTrips.of_text {text : α → String} (htext : ∀ a, write a = .text (text a))
    (hwrite : ∀ a, read (write a) = some a) : RoundTrips write read fun _ => .nothing :=
  .of_neutral hwrite Edit.neutral_nothing fun a v h => (plain_text v (htext a ▸ h)).elim

-- ================================================================== ids

/-- An id is read back from its text. -/
theorem id?_ofId {kind : IdKind} (id : Id kind) : id? (ofId id) = some id := by
  unfold ofId Id.text
  rw [id?_text]
  exact Id.ofChars?_of_spells Id.spells_chars

/-- Ids are read back, in whatever spelling they are put. -/
theorem roundTrips_id {kind : IdKind} :
    RoundTrips (ofId : Id kind → Value) id? fun _ => .respell kind :=
  .of_neutral id?_ofId Edit.neutral_respell fun _ v h => (plain_text v h).elim

-- ================================================== enumerations

/-- Tiers are read back from their names. -/
theorem roundTrips_tier : RoundTrips ofTier tier? fun _ => .nothing :=
  .of_text (fun _ => rfl) Tier.ofName?_name

/-- The reasons of decisions are read back from their names. -/
theorem roundTrips_reason : RoundTrips ofReason reason? fun _ => .nothing :=
  .of_text (fun _ => rfl) Reason.ofName?_name

/-- How denials are reported is read back from its names. -/
theorem roundTrips_denial : RoundTrips ofDenial denial? fun _ => .nothing :=
  .of_text (fun _ => rfl) Denial.ofName?_name

-- ============================================================ records

-- For each record: the edits that its fields allow, what is read of the fields as they
-- were written, and that the reader of each field takes no notice of its edits.

@[simp] theorem plain_ofId {kind : IdKind} {id : Id kind} : Plain (ofId id) := plain_text

@[simp] theorem plain_ofPermissions {s : PermissionSet} : Plain (ofPermissions s) := plain_ofTexts

/-- A set of permissions is read back from the list of its members. -/
theorem permissions?_ofPermissions (s : PermissionSet) :
    permissions? (ofPermissions s) = some s := by
  unfold ofPermissions
  rw [permissions?_ofTexts]
  exact congrArg some (PermissionSet.ext_mem fun _ => PermissionSet.mem_ofList)

/-- A whole number of 32 bits is in range when it is read back. -/
theorem int32?_whole (n : Int32) : (Value.whole n.toInt).int32? = some n := by
  show (if _ then _ else _) = _
  rw [if_pos ⟨n.minValue_le_toInt, n.toInt_le⟩, Int32.ofInt_toInt]

/-- The edits of a project. -/
def projectFields : List (String × Edit) :=
  [("id", .respell .project), ("owner", .respell .user), ("is_private", .nothing),
    ("anon_permissions", .relist), ("public_permissions", .relist)]

theorem project?_ofProject (p : Project) : project? (ofProject p) = some p := by
  have hfields : (ofProject p).fields?
      ["id", "owner", "is_private", "anon_permissions", "public_permissions"]
      = some [ofId p.id, ofId p.owner, .flag p.isPrivate, ofPermissions p.anonPermissions,
          ofPermissions p.publicPermissions] :=
    Value.fields?_eq_some (by decide) rfl rfl
  simp [project?, hfields, id?_ofId, permissions?_ofPermissions, Value.flag?]

/-- The reader of projects takes no notice of other spellings of its two ids, nor of how
the two lists of permissions are ordered or repeated. -/
theorem neutral_project : (Edit.object projectFields).Neutral project? := by
  intro v v' h
  apply Edit.bind_fields?_of_object (by decide) h
  intro vs vs' htouched
  rcases htouched with _ | ⟨hid, _ | ⟨howner, _ | ⟨hprivate, _ | ⟨hanon, _ | ⟨hpublic, _ | _⟩⟩⟩⟩⟩
  cases Edit.eq_of_nothing hprivate
  simp only [Edit.neutral_respell.eq hid, Edit.neutral_respell.eq howner,
    Edit.neutral_relist.eq hanon, Edit.neutral_relist.eq hpublic]

/-- Projects are read back, and not if one of the five keys is missing. -/
theorem roundTrips_project :
    RoundTrips ofProject project? fun _ => .object projectFields := by
  apply RoundTrips.of_neutral project?_ofProject neutral_project
  intro p v h
  exact h.bind_fields?_eq_none (by decide) rfl rfl (by simp)

/-- The edits of a role. Its permissions have to stay as they are. -/
def roleFields : List (String × Edit) :=
  [("id", .respell .role), ("project_id", .respell .project), ("name", .nothing),
    ("permissions", .nothing), ("order", .nothing)]

theorem role?_ofRole (r : Role) : role? (ofRole r) = some r := by
  have hfields : (ofRole r).fields? ["id", "project_id", "name", "permissions", "order"]
      = some [ofId r.id, ofId r.projectId, .text r.name, .ofTexts r.permissions,
          .whole r.order.toInt] :=
    Value.fields?_eq_some (by decide) rfl rfl
  simp [role?, hfields, id?_ofId, Value.texts?_ofTexts, int32?_whole, Value.text?]

/-- The reader of roles takes no notice of other spellings of its two ids. -/
theorem neutral_role : (Edit.object roleFields).Neutral role? := by
  intro v v' h
  apply Edit.bind_fields?_of_object (by decide) h
  intro vs vs' htouched
  rcases htouched with _ | ⟨hid, _ | ⟨hproject, _ | ⟨hname, _ | ⟨hlist, _ | ⟨horder, _ | _⟩⟩⟩⟩⟩
  cases Edit.eq_of_nothing hname
  cases Edit.eq_of_nothing hlist
  cases Edit.eq_of_nothing horder
  simp only [Edit.neutral_respell.eq hid, Edit.neutral_respell.eq hproject]

/-- Roles are read back, with their permissions in the order in which they stand. -/
theorem roundTrips_role : RoundTrips ofRole role? fun _ => .object roleFields := by
  apply RoundTrips.of_neutral role?_ofRole neutral_role
  intro r v h
  exact h.bind_fields?_eq_none (by decide) rfl rfl (by simp)

/-- The edits of a membership, and in it of its role. -/
def membershipFields : List (String × Edit) :=
  [("user_id", .respell .user), ("project_id", .respell .project), ("role", .object roleFields),
    ("is_owner", .nothing)]

theorem membership?_ofMembership (m : Membership) : membership? (ofMembership m) = some m := by
  have hfields : (ofMembership m).fields? ["user_id", "project_id", "role", "is_owner"]
      = some [ofId m.userId, ofId m.projectId, ofRole m.role, .flag m.isOwner] :=
    Value.fields?_eq_some (by decide) rfl rfl
  simp [membership?, hfields, id?_ofId, role?_ofRole, Value.flag?]

/-- What the reader of roles takes no notice of, the reader of memberships does not notice
in the role either. -/
theorem neutral_membership : (Edit.object membershipFields).Neutral membership? := by
  intro v v' h
  apply Edit.bind_fields?_of_object (by decide) h
  intro vs vs' htouched
  rcases htouched with _ | ⟨huser, _ | ⟨hproject, _ | ⟨hrole, _ | ⟨howner, _ | _⟩⟩⟩⟩
  cases Edit.eq_of_nothing howner
  simp only [Edit.neutral_respell.eq huser, Edit.neutral_respell.eq hproject,
    neutral_role.eq hrole]

/-- A membership is not read if its role is not. -/
theorem membership?_of_role {given : List (String × Value)} {v : Value}
    (hfield : Value.field? given "role" = some v) (hrole : role? v = none) :
    membership? (.object given) = none := by
  cases huser : Value.field? given "user_id" with
  | none => simp [membership?, Value.fields?, huser]
  | some user =>
      cases hproject : Value.field? given "project_id" with
      | none => simp [membership?, Value.fields?, hproject]
      | some project =>
          cases howner : Value.field? given "is_owner" with
          | none => simp [membership?, Value.fields?, howner]
          | some owner =>
              simp [membership?, Value.fields?, huser, hproject, hfield, howner, hrole]

/-- Memberships are read back, and not if a key is missing in them or in their role. -/
theorem roundTrips_membership :
    RoundTrips ofMembership membership? fun _ => .object membershipFields := by
  apply RoundTrips.of_neutral membership?_ofMembership neutral_membership
  intro m v h
  obtain ⟨given, name, field, rfl, hmem, hlost | ⟨w, hw, hfound⟩⟩ := h.field? (by simp)
  · have hname : name ∈ ["user_id", "project_id", "role", "is_owner"] :=
      List.mem_map_of_mem (f := (·.1)) hmem
    have hnone :
        (Value.object given).fields? ["user_id", "project_id", "role", "is_owner"] = none :=
      Value.fields?_eq_none hname hlost
    unfold membership?
    rw [hnone]
    rfl
  · simp only [List.mem_cons, List.not_mem_nil, or_false, Prod.mk.injEq] at hmem
    rcases hmem with ⟨-, rfl⟩ | ⟨-, rfl⟩ | ⟨rfl, rfl⟩ | ⟨-, rfl⟩
    · exact absurd hw (plain_ofId w)
    · exact absurd hw (plain_ofId w)
    · exact membership?_of_role hfound (roundTrips_role.read_of_lacks m.role w hw)
    · exact absurd hw (plain_flag w)

/-- The edits of a catalog entry. Its id is a permission, and is spelled in one way only. -/
def entryFields : List (String × Edit) := [("id", .nothing), ("label", .nothing)]

theorem entry?_ofEntry (e : CatalogEntry) : entry? (ofEntry e) = some e := by
  have hfields : (ofEntry e).fields? ["id", "label"] = some [.text e.id, .text e.label] :=
    Value.fields?_eq_some (by decide) rfl rfl
  simp [hfields, entry?, Value.text?]

/-- The only edits of an entry are keys that are unknown, and they are passed over. -/
theorem neutral_entry : (Edit.object entryFields).Neutral entry? := by
  intro v v' h
  apply Edit.bind_fields?_of_object (by decide) h
  intro vs vs' htouched
  rcases htouched with _ | ⟨hid, _ | ⟨hlabel, _ | _⟩⟩
  cases Edit.eq_of_nothing hid
  cases Edit.eq_of_nothing hlabel
  rfl

/-- Catalog entries are read back, and not if one of the two keys is missing. -/
theorem roundTrips_entry : RoundTrips ofEntry entry? fun _ => .object entryFields := by
  apply RoundTrips.of_neutral entry?_ofEntry neutral_entry
  intro e v h
  exact h.bind_fields?_eq_none (by decide) rfl rfl (by simp)

/-- The edits of a decision. -/
def decisionFields : List (String × Edit) := [("allow", .nothing), ("reason", .nothing)]

theorem decision?_ofDecision (d : Decision) : decision? (ofDecision d) = some d := by
  have hfields : (ofDecision d).fields? ["allow", "reason"]
      = some [.flag d.allow, ofReason d.reason] :=
    Value.fields?_eq_some (by decide) rfl rfl
  simp [decision?, hfields, roundTrips_reason.read_write, Value.flag?]

theorem neutral_decision : (Edit.object decisionFields).Neutral decision? := by
  intro v v' h
  apply Edit.bind_fields?_of_object (by decide) h
  intro vs vs' htouched
  rcases htouched with _ | ⟨hallow, _ | ⟨hreason, _ | _⟩⟩
  cases Edit.eq_of_nothing hallow
  cases Edit.eq_of_nothing hreason
  rfl

/-- Decisions are read back, and not if one of the two keys is missing. -/
theorem roundTrips_decision : RoundTrips ofDecision decision? fun _ => .object decisionFields := by
  apply RoundTrips.of_neutral decision?_ofDecision neutral_decision
  intro d v h
  exact h.bind_fields?_eq_none (by decide) rfl rfl (by simp [ofReason])

-- ============================================================ subjects

/-- The edits of a user. -/
def userFields : List (String × Edit) := [("id", .respell .user), ("is_superuser", .nothing)]

theorem user?_ofUser (u : User) : user? (ofUser u) = some u := by
  have hfields : (ofUser u).fields? ["id", "is_superuser"]
      = some [ofId u.id, .flag u.isSuperuser] :=
    Value.fields?_eq_some (by decide) rfl rfl
  simp [user?, hfields, userOf?, id?_ofId, Value.flag?]

theorem neutral_user : (Edit.object userFields).Neutral user? := by
  intro v v' h
  apply Edit.bind_fields?_of_object (by decide) h
  intro vs vs' htouched
  rcases htouched with _ | ⟨hid, _ | ⟨hsuper, _ | _⟩⟩
  cases Edit.eq_of_nothing hsuper
  simp only [userOf?, Edit.neutral_respell.eq hid]

/-- A user of whom a key is missing is not read. -/
theorem user?_of_lacks (u : User) (v : Value) (h : Lacks (ofUser u) v) : user? v = none :=
  h.bind_fields?_eq_none (by decide) rfl rfl (by simp)

/-- The edits of a subject. An id is a field of a user, and an unknown key otherwise. -/
def subjectFields : Subject → List (String × Edit)
  | .anonymous => [("kind", .nothing)]
  | .user _ => ("kind", .nothing) :: userFields

theorem nodup_subjectFields {subject : Subject} :
    ((subjectFields subject).map (·.1)).Nodup := by
  have huser : ((("kind", Edit.nothing) :: userFields).map (·.1)).Nodup := by decide
  cases subject with
  | anonymous => exact List.nodup_singleton "kind"
  | user => exact huser

/-- Reads the rest of a subject when its kind is known. -/
def subjectOf? (given : List (String × Value)) (kind : String) : Option Subject :=
  match kind with
  | "anonymous" => some .anonymous
  | "user" => (user? (.object given)).map .user
  | _ => none

/-- Of a subject the kind is read first, and then what goes with it. -/
theorem subject?_object (given : List (String × Value)) : subject? (.object given)
    = (Value.field? given "kind").bind fun kind => kind.text?.bind (subjectOf? given) := rfl

theorem subjectOf?_user {given : List (String × Value)} :
    subjectOf? given "user" = (user? (.object given)).map .user := rfl

/-- No other kind is read as the anonymous subject. -/
theorem subjectOf?_eq_anonymous {given : List (String × Value)} {kind : String} :
    subjectOf? given kind = some .anonymous ↔ kind = "anonymous" := by
  unfold subjectOf?
  split
  next => exact iff_of_true rfl rfl
  next =>
    apply iff_of_false _ (by decide)
    cases user? (.object given) <;> nofun
  next hanonymous _ => exact iff_of_false nofun hanonymous

theorem subject?_ofSubject (subject : Subject) : subject? (ofSubject subject) = some subject := by
  cases subject with
  | anonymous => rfl
  | user user =>
      have hkind : Value.field? [("kind", .text "user"), ("id", ofId user.id),
          ("is_superuser", .flag user.isSuperuser)] "kind" = some (.text "user") :=
        Value.field?_of_mem (by simp) List.mem_cons_self
      -- to the reader of a user the kind is an unknown key
      have huser : user? (ofUser user) = user? (ofSubject (.user user)) :=
        neutral_user _ _ (@Edit.object.add _ [] _ "kind" _ (by decide))
      unfold ofSubject at huser ⊢
      rw [subject?_object, hkind, Option.bind_some, Value.text?, Option.bind_some, subjectOf?_user,
        ← huser, user?_ofUser]
      rfl

/-- An edit of a subject is not noticed. What may be edited depends on the kind, so it is
not the same for all values. -/
theorem subject?_of_edit (subject : Subject) (v v' : Value)
    (h : Edit.object (subjectFields subject) v v') (hread : subject? v = some subject) :
    subject? v' = some subject := by
  obtain ⟨given, given', rfl, rfl⟩ := h.exists_objects
  have hkind : Value.field? given "kind" = Value.field? given' "kind" := by
    have hfield : ("kind", Edit.nothing) ∈ subjectFields subject := by
      cases subject <;> exact List.mem_cons_self
    rcases Edit.field?_of_object nodup_subjectFields hfield h with hsame | ⟨_, _, hedit, -⟩
    · exact hsame
    · exact hedit.elim
  rw [subject?_object] at hread ⊢
  rw [← hkind]
  cases subject with
  | anonymous =>
      obtain ⟨kind, hfound, hrest⟩ := Option.bind_eq_some_iff.1 hread
      obtain ⟨text, htext, hanonymous⟩ := Option.bind_eq_some_iff.1 hrest
      rw [subjectOf?_eq_anonymous] at hanonymous
      rw [hfound, Option.bind_some, htext, Option.bind_some, subjectOf?_eq_anonymous]
      exact hanonymous
  | user user =>
      have huser : user? (.object given) = user? (.object given') :=
        neutral_user _ _ (Edit.object_of_nothing h)
      have hrest : subjectOf? given = subjectOf? given' := by
        unfold subjectOf?
        rw [huser]
      rw [← hrest]
      exact hread

/-- A subject is not read without its kind, nor a user of whom a key is missing. -/
theorem subject?_of_lacks (subject : Subject) (v : Value) (h : Lacks (ofSubject subject) v) :
    subject? v = none := by
  cases subject with
  | anonymous =>
      obtain ⟨given, name, field, rfl, hmem, hlost⟩ := h.field? (by simp)
      cases List.mem_singleton.1 hmem
      rcases hlost with hlost | ⟨w, hw, -⟩
      · rw [subject?_object, hlost]
        rfl
      · exact absurd hw (plain_text w)
  | user user =>
      rcases h.of_cons with rfl | ⟨w, hw⟩ | ⟨rest, rfl, hrest⟩
      · rfl
      · exact absurd hw (plain_text w)
      · have huser : user? (.object rest) = user? (.object (("kind", .text "user") :: rest)) :=
          neutral_user _ _ (@Edit.object.add _ [] _ "kind" _ (by decide))
        have hnone : user? (.object (("kind", .text "user") :: rest)) = none :=
          huser.symm.trans (user?_of_lacks user _ hrest)
        rw [subject?_object]
        -- the kind is the first field, and is found unless it is there again
        by_cases hkind : "kind" ∈ rest.map (·.1)
        · have hfound : Value.field? (("kind", .text "user") :: rest) "kind" = none :=
            @Value.field?_eq_none_of_repeated [] rest "kind" _ hkind
          rw [hfound]
          rfl
        · have hfound : Value.field? (("kind", .text "user") :: rest) "kind"
              = some (.text "user") := @Value.field?_append_cons_self [] rest "kind" _ hkind
          rw [hfound, Option.bind_some, Value.text?, Option.bind_some, subjectOf?_user, hnone]
          rfl

/-- Subjects are read back, each with the edits of its kind. -/
theorem roundTrips_subject :
    RoundTrips ofSubject subject? fun subject => .object (subjectFields subject) :=
  .of_edit subject?_ofSubject subject?_of_edit subject?_of_lacks

-- ========================================================== main result

/-- All kinds of records are read back. What was written is read as the value that it was
written for, so different values are written differently. It is still read so after any
number of edits: unknown keys may be added to every object in it, the sets of a project
listed otherwise, and ids spelled otherwise. Once a key is missing from an object it is not
read at all. -/
theorem records_round_trip :
    RoundTrips (ofId : UserId → Value) id? (fun _ => .respell .user)
      ∧ RoundTrips ofSubject subject? (fun subject => .object (subjectFields subject))
      ∧ RoundTrips ofProject project? (fun _ => .object projectFields)
      ∧ RoundTrips ofRole role? (fun _ => .object roleFields)
      ∧ RoundTrips ofMembership membership? (fun _ => .object membershipFields)
      ∧ RoundTrips ofTier tier? (fun _ => .nothing)
      ∧ RoundTrips ofEntry entry? (fun _ => .object entryFields)
      ∧ RoundTrips ofReason reason? (fun _ => .nothing)
      ∧ RoundTrips ofDenial denial? (fun _ => .nothing)
      ∧ RoundTrips ofDecision decision? (fun _ => .object decisionFields) :=
  ⟨roundTrips_id, roundTrips_subject, roundTrips_project, roundTrips_role, roundTrips_membership,
    roundTrips_tier, roundTrips_entry, roundTrips_reason, roundTrips_denial, roundTrips_decision⟩

example :
    project? (.object
      [("note", .null), ("id", .text "URN:uuid:00000000-0000-0000-0000-00000000000A"),
        ("owner", .text "\x7b00000000-0000-0000-0000-000000000002\x7d"),
        ("is_private", .flag false), ("anon_permissions", .ofTexts ["see", "ask", "see"]),
        ("public_permissions", .ofTexts [])])
      = some ((Project.new ⟨10⟩ ⟨2⟩).withAnonPermissions ["ask", "see"]) := by
  decide +kernel

end ProjectAccess.Record
