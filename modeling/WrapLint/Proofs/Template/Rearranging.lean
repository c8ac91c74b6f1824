import WrapLint.Proofs.Template.Replacing
import WrapLint.Proofs.Template.Roles

/-!
# Reading a document whose members are rearranged

A document is read the same if the members of its objects stand in another order, or if members
that nobody reads have been added.  The proofs follow the tree that is read, from the values of
attributes up to the document.

**Results.**
* `AttributeValue.decode?_of_rearranged`, `Node.decode?_of_rearranged`: the same value and the same
  tree are read.
* `Document.read?_of_rearranged`: the same document is read.
-/

namespace WrapLint
namespace Template

open Json (Text member? required?)

section Attributes

variable {α : Type} {mayAdd : Role → Prop} {role : Role} {roles : Text → Role}
  {members others : List (Text × Json)} {value other : Json}

/-- Where no member is added to it, an object that gives a type gives the same type. -/
theorem decodeTag?_of_rearranged (hmay : ¬ mayAdd .type) {word : String}
    (h : Rearranged mayAdd .type value other) (hword : decodeTag? value = some word) :
    decodeTag? other = some word := by
  have hsame := hword
  unfold decodeTag? at hword
  -- the only member of an object holds null or an empty object; else the type is a string
  split at hword
  · obtain ⟨value', rfl, hvalue⟩ := h.exists_only hmay
    cases hvalue
    exact hword
  · obtain ⟨value', rfl, hvalue⟩ := h.exists_only hmay
    rw [hvalue.eq_empty hmay]
    exact hword
  · cases h with
    | same => exact hsame
    | array _ | object _ _ _ _ => cases hword

theorem AttributeValue.decode?_of_rearranged (hmay : ¬ mayAdd .type) {result : AttributeValue}
    (h : Rearranged mayAdd .value value other)
    (hvalue : AttributeValue.decode? value = some result) :
    AttributeValue.decode? other = some result := by
  match value with
  | .object members =>
      obtain ⟨others, rfl, hfound⟩ := h.foundAgain
      simp only [AttributeValue.decode?, Option.bind_eq_bind, Option.bind_eq_some_iff] at hvalue
      obtain ⟨type, htype, kind, hkind, content, hcontent, hparts⟩ := hvalue
      have htypes : (required? "type" others).bind decodeTag? = some kind := by
        refine hfound.required (fun _ _ hother htag => decodeTag?_of_rearranged hmay hother htag)
          ?_ (by decide)
        rw [htype]
        exact hkind
      have hcontents : (member? "value" others).bind (AttributeValue.ofParts? kind)
          = some result := by
        refine hfound.optional (fun _ _ hrel hread =>
          (AttributeValue.ofParts?_eq_of_rearranged kind hrel).trans hread) ?_ (by decide)
        rw [hcontent]
        exact hparts
      obtain ⟨type', htype', hkind'⟩ := Option.bind_eq_some_iff.1 htypes
      simp only [AttributeValue.decode?, Option.bind_eq_bind, htype', Option.bind_some, hkind',
        hcontents]
  | .array [kind, content] =>
      obtain ⟨others, rfl, hitems⟩ := h.exists_items
      cases hitems with
      | cons hkind hitems =>
          cases hitems with
          | cons hcontent hitems =>
              cases hitems
              rw [AttributeValue.decode?, hkind.decodeWord?_eq]
              simp only [AttributeValue.ofParts?_eq_of_rearranged _ (.some hcontent)]
              exact hvalue
  | .array [] | .array [_] | .array (_ :: _ :: _ :: _) | .null | .boolean _ | .number _
  | .string _ => cases hvalue

theorem FoundAgain.attribute (hmay : ¬ mayAdd .type) {item : Attribute}
    (h : FoundAgain mayAdd roles members others) (hrole : roles (.whole "value") = .value)
    (hitem : Attribute.ofMembers? members = some item) :
    Attribute.ofMembers? others = some item := by
  rw [Attribute.ofMembers?_eq_some_iff] at hitem ⊢
  obtain ⟨hname, hvalue, hposition⟩ := hitem
  refine ⟨h.textOf? hname (by decide), ?_, h.position hposition⟩
  refine h.required (fun value other hother hread => ?_) hvalue (by decide)
  rw [hrole] at hother
  exact AttributeValue.decode?_of_rearranged hmay hother hread

theorem Attribute.decode?_of_rearranged (hmay : ¬ mayAdd .type) {item : Attribute}
    (h : Rearranged mayAdd .attribute value other) (hitem : Attribute.decode? value = some item) :
    Attribute.decode? other = some item := by
  cases value with
  | object members =>
      obtain ⟨others, rfl, hfound⟩ := h.foundAgain
      exact hfound.attribute hmay rfl hitem
  | _ => cases hitem

theorem ItemsRearranged.mapM_eq_some {read? : Json → Option α} {items rearranged : List Json}
    {list : List α}
    (hread : ∀ value other a, Rearranged mayAdd role value other → read? value = some a →
      read? other = some a)
    (h : ItemsRearranged mayAdd role items rearranged) (hitems : items.mapM read? = some list) :
    rearranged.mapM read? = some list := by
  induction items generalizing rearranged list with
  | nil =>
      cases h
      exact hitems
  | cons item items ih =>
      cases h with
      | cons hitem hrest =>
          simp only [List.mapM_cons, Option.bind_eq_bind, Option.pure_def,
            Option.bind_eq_some_iff] at hitems ⊢
          obtain ⟨first, hfirst, rest, hrests, hlist⟩ := hitems
          exact ⟨first, hread _ _ _ hitem hfirst, rest, ih hrest hrests, hlist⟩

theorem FoundAgain.attributes (hmay : ¬ mayAdd .type) {list : List Attribute}
    (h : FoundAgain mayAdd roles members others)
    (hrole : roles (.whole "attributes") = .attribute)
    (hlist : attributesOf? members = some list) : attributesOf? others = some list := by
  refine h.optional_of_role hrole (fun value other hother hread => ?_) hlist (by decide)
  cases value with
  | array items =>
      obtain ⟨rearranged, rfl, hitems⟩ := hother.exists_items
      exact hitems.mapM_eq_some
        (fun _ _ _ hitem hread => Attribute.decode?_of_rearranged hmay hitem hread) hread
  | _ => cases hread

theorem FoundAgain.list (hmay : ¬ mayAdd .type) {list : AttributeList}
    (h : FoundAgain mayAdd roles members others)
    (hrole : roles (.whole "attributes") = .attribute)
    (hlist : AttributeList.ofMembers? members = some list) :
    AttributeList.ofMembers? others = some list := by
  rw [AttributeList.ofMembers?_eq_some_iff] at hlist ⊢
  exact ⟨h.position hlist.1, h.attributes hmay hrole hlist.2⟩

theorem FoundAgain.optionalList (hmay : ¬ mayAdd .type) {list : AttributeList}
    (h : FoundAgain mayAdd roles members others) (hrole : roles (.whole "attributes") = .list)
    (hlist : listOf? members = some list) : listOf? others = some list := by
  refine h.optional_of_role hrole (fun value other hother hread => ?_) hlist (by decide)
  cases value with
  | object inner =>
      obtain ⟨rearranged, rfl, hfound⟩ := hother.foundAgain
      exact hfound.list hmay rfl hread
  | _ => cases hread

end Attributes

section Nodes

variable {mayAdd : Role → Prop} {members others : List (Text × Json)} {name : String}

theorem Role.member_node {kind : String} (hkind : kindOf? members = some kind) :
    Role.member members .node (.whole name) = Role.ofNodeMember kind name := by
  rw [Role.member, hkind]

theorem FoundAgain.children {roles : Text → Role} {children : List Node}
    (h : FoundAgain mayAdd roles members others)
    (hrole : roles (.whole "children") = .node)
    (hread : ∀ items rearranged, ItemsRearranged mayAdd .node items rearranged →
      Node.decodeItems? items = some children → Node.decodeItems? rearranged = some children)
    (hchildren : childrenOf? members = some children) : childrenOf? others = some children := by
  refine h.optional_of_role hrole (fun value other hother hlist => ?_) hchildren (by decide)
  cases value with
  | array items =>
      obtain ⟨rearranged, rfl, hitems⟩ := hother.exists_items
      exact hread items rearranged hitems hlist
  | _ => cases hlist

mutual

/-- The same tree is read from a rearranged value.  The induction is on the tree. -/
theorem Node.decode?_of_rearranged (hmay : ¬ mayAdd .type) {value other : Json} (node : Node)
    (h : Rearranged mayAdd .node value other) (hnode : Node.decode? value = some node) :
    Node.decode? other = some node := by
  match value with
  | .object members =>
      obtain ⟨others, rfl, hfound⟩ := h.foundAgain
      rw [Node.decode?_object_iff] at hnode ⊢
      match node with
      | .element tag position list children =>
          obtain ⟨hkind, htag, hposition, hlist, hchildren⟩ := hnode
          exact ⟨hfound.kindOf? hkind, hfound.textOf? htag (by decide),
            hfound.position hposition,
            hfound.optionalList hmay (Role.member_node hkind) hlist,
            hfound.children (Role.member_node hkind)
              (fun _ _ hitems hread => Node.decodeItems?_of_rearranged hmay children hitems hread)
              hchildren⟩
      | .attributeList list =>
          obtain ⟨hkind, hlist⟩ := hnode
          exact ⟨hfound.kindOf? hkind, hfound.list hmay (Role.member_node hkind) hlist⟩
      | .attr item =>
          obtain ⟨hkind, hitem⟩ := hnode
          exact ⟨hfound.kindOf? hkind, hfound.attribute hmay (Role.member_node hkind) hitem⟩
      | .other position children =>
          obtain ⟨hkind, hposition, hchildren⟩ := hnode
          exact ⟨hfound.kindOf? hkind, hfound.position hposition,
            hfound.children (Role.member_node hkind)
              (fun _ _ hitems hread => Node.decodeItems?_of_rearranged hmay children hitems hread)
              hchildren⟩
  | .array _ | .null | .boolean _ | .number _ | .string _ => cases hnode

theorem Node.decodeItems?_of_rearranged (hmay : ¬ mayAdd .type) {items rearranged : List Json}
    (nodes : List Node) (h : ItemsRearranged mayAdd .node items rearranged)
    (hnodes : Node.decodeItems? items = some nodes) :
    Node.decodeItems? rearranged = some nodes := by
  match items, nodes with
  | [], nodes =>
      cases h
      exact hnodes
  | item :: items, [] =>
      obtain ⟨_, _, -, -, heq⟩ := Node.decodeItems?_cons_iff.1 hnodes
      cases heq
  | item :: items, node :: nodes =>
      obtain ⟨_, _, hnode, hrest, heq⟩ := Node.decodeItems?_cons_iff.1 hnodes
      obtain ⟨rfl, rfl⟩ := List.cons.inj heq
      cases h with
      | cons hitem hitems =>
          exact Node.decodeItems?_cons_iff.2 ⟨node, nodes,
            Node.decode?_of_rearranged hmay node hitem hnode,
            Node.decodeItems?_of_rearranged hmay nodes hitems hrest, rfl⟩

end

theorem hasKindWord_of_rearranged {value other : Json} (h : Rearranged mayAdd .node value other)
    (hword : hasKindWord value = true) : hasKindWord other = true := by
  cases value with
  | object members =>
      obtain ⟨others, rfl, hfound⟩ := h.foundAgain
      obtain ⟨word, hkind⟩ := Option.isSome_iff_exists.1 hword
      rw [hasKindWord, hfound.required (fun _ _ hother htext => hother.text?_eq.trans htext) hkind
        (by decide)]
      rfl
  | _ => cases hword

end Nodes

section Documents

variable {mayAdd : Role → Prop} {document : Document} {source root : Json}

theorem Document.ofParts?_of_rearranged (hmay : ¬ mayAdd .type) {role : Role} {source' root' : Json}
    (hsource : Rearranged mayAdd role source source') (hroot : Rearranged mayAdd .node root root')
    (hdepth : root'.depth ≤ depthLimit - 1)
    (h : Document.ofParts? source root = some document) :
    Document.ofParts? source' root' = some document := by
  rw [Document.ofParts?_eq_some_iff] at h ⊢
  obtain ⟨text, node, htext, hword, -, hsound, hnode, heq⟩ := h
  exact ⟨text, node, hsource.text?_eq.trans htext, hasKindWord_of_rearranged hroot hword, hdepth,
    hroot.sound root hsound, Node.decode?_of_rearranged hmay node hroot hnode, heq⟩

theorem Document.decode?_of_rearranged (hmay : ¬ mayAdd .type) {value other : Json}
    (h : Rearranged mayAdd .document value other) (hdepth : other.depth ≤ depthLimit)
    (hdocument : Document.decode? value = some document) :
    Document.decode? other = some document := by
  match value with
  | .object members =>
      obtain ⟨hwhole, source, root, hsource, hroot, hparts⟩ :=
        Document.decode?_object_iff.1 hdocument
      have hnames := h.forall_isWhole hwhole
      obtain ⟨others, rfl, hfound⟩ := h.foundAgain
      obtain ⟨_, hsource', hrelSource⟩ := hfound "source" (by decide) _ hsource
      obtain ⟨_, hroot', hrelRoot⟩ := hfound "root" (by decide) _ hroot
      cases hrelSource with
      | @some _ source' hsources =>
          cases hrelRoot with
          | @some _ root' hroots =>
              have hinside := depth_lt_of_member? hroot'
              exact Document.decode?_object_iff.2 ⟨hnames _ rfl, source', root', hsource', hroot',
                Document.ofParts?_of_rearranged hmay hsources hroots (by omega) hparts⟩
  | .array [source, root] =>
      obtain ⟨others, rfl, hitems⟩ := h.exists_items
      cases hitems with
      | cons hsource hitems =>
          cases hitems with
          | cons hroot hitems =>
              cases hitems
              simp only [Json.depth, Json.itemsDepth] at hdepth
              exact Document.ofParts?_of_rearranged hmay hsource hroot (by omega) hdocument
  | .array [] | .array [_] | .array (_ :: _ :: _ :: _) | .null | .boolean _ | .number _
  | .string _ => cases hdocument

/-- A document is read again if the members of its objects are put in another order and members
that nobody reads are added to them, but to none that gives the type of an attribute's value. -/
theorem Document.read?_of_rearranged {text other : String} {value rearranged : Json}
    (htext : Json.read? text = some value) (hdocument : Document.read? text = some document)
    (hother : Json.read? other = some rearranged)
    (hrearranged : Rearranged (fun role => role ≠ .type) .document value rearranged)
    (hdepth : rearranged.depth ≤ 127) : Document.read? other = some document := by
  rw [Document.read?, htext] at hdocument
  rw [Document.read?, hother]
  exact Document.decode?_of_rearranged (fun hne => hne rfl) hrearranged hdepth hdocument

end Documents

section Samples

variable {mayAdd : Role → Prop} {role : Role} {members kept notes : List (String × Json)}
  {name : String} {type value : Json}

/-- An object written back to front, with notes. -/
def backwards (members notes : List (String × Json)) : Json :=
  .ofMembers (members ++ notes).reverse

theorem plain_backwards (hmembers : ∀ member ∈ members, member.2.Plain)
    (hnotes : ∀ member ∈ notes, member.2.Plain) : (backwards members notes).Plain := by
  rw [backwards, plain_ofMembers]
  intro member hmember
  rcases List.mem_append.1 (List.mem_reverse.1 hmember) with hmember | hmember
  · exact hmembers member hmember
  · exact hnotes member hmember

theorem plain_note (h : value.Plain) : ∀ member ∈ [(name, value)], member.2.Plain :=
  List.forall_mem_singleton.2 h

theorem unread_singleton (hname : name ∉ knownNames) (hvalue : value.Plain) :
    Unread (named [(name, value)]) := by
  rw [Unread, named, List.forall_mem_map, List.forall_mem_singleton]
  refine ⟨rfl, ?_, hvalue⟩
  intro known hknown heq
  exact hname (Text.whole.inj heq ▸ hknown)

theorem Rearranged.backwards
    (hkept : MembersRearranged mayAdd (role.member (named members)) (named members) (named kept))
    (hnotes : Unread (named notes)) (hmay : mayAdd role) :
    Rearranged mayAdd role (.ofMembers members) (backwards kept notes) := by
  refine .object hkept hnotes (.inr hmay) ?_
  rw [← named_append]
  exact (List.reverse_perm (kept ++ notes)).map _

theorem Rearranged.inside
    (hkept : MembersRearranged mayAdd (role.member (named members)) (named members) (named kept)) :
    Rearranged mayAdd role (.ofMembers members) (.ofMembers kept) := by
  refine .object hkept (List.forall_mem_nil _) (.inl rfl) ?_
  rw [List.append_nil]
  exact .refl _

/-- The members of an attribute that stands alone. -/
def attributeMembers (value : Json) : List (String × Json) :=
  [("kind", .ofString "attribute"), ("line", .ofNat 1), ("name", .ofString "a"), ("value", value)]

/-- The members of a value of this type. -/
def valueMembers (type : Json) : List (String × Json) :=
  [("type", type), ("value", .ofString "v")]

/-- An attribute with a value of this type. -/
def attributed (type : Json) : Json :=
  .ofMembers (attributeMembers (.ofMembers (valueMembers type)))

/-- A document with an attribute, each of its objects written back to front. -/
def allBackwards : Json :=
  backwards
    [("source", .ofString "p\n"),
      ("root", backwards
        (attributeMembers (backwards (valueMembers (.ofString "static")) [("note", .ofNat 1)]))
        [("note", .array [.null])])]
    [("note", .boolean true)]

theorem plain_valueMembers (h : type.Plain) : ∀ member ∈ valueMembers type, member.2.Plain := by
  rw [valueMembers, List.forall_mem_cons, List.forall_mem_singleton]
  exact ⟨h, Json.plain_ofString _⟩

theorem plain_attributeMembers (h : value.Plain) :
    ∀ member ∈ attributeMembers value, member.2.Plain := by
  simp only [attributeMembers, List.forall_mem_cons]
  exact ⟨Json.plain_ofString _, plain_ofNat (by decide), Json.plain_ofString _, h, nofun⟩

theorem plain_attributed (h : type.Plain) : (attributed type).Plain :=
  plain_ofMembers.2 (plain_attributeMembers (plain_ofMembers.2 (plain_valueMembers h)))

theorem plain_array_null : (Json.array [.null]).Plain :=
  Json.plain_array.2 (by simp [Json.Plain, Json.Everywhere])

theorem plain_allBackwards : allBackwards.Plain := by
  have hvalue : (backwards (valueMembers (.ofString "static")) [("note", .ofNat 1)]).Plain :=
    plain_backwards (plain_valueMembers (Json.plain_ofString _))
      (plain_note (plain_ofNat (by decide)))
  have hnote : ∀ member ∈ [("note", Json.array [.null])], member.2.Plain :=
    plain_note plain_array_null
  have hattribute := plain_backwards (plain_attributeMembers hvalue) hnote
  refine plain_backwards ?_ (plain_note trivial)
  rw [List.forall_mem_cons, List.forall_mem_singleton]
  exact ⟨Json.plain_ofString _, hattribute⟩

theorem Document.read?_attributed (h : type.Plain) (hdepth : (attributed type).depth ≤ 126)
    (htype : decodeTag? type = some "static") :
    Document.read? (Json.compact (sourced (attributed type)))
      = some ⟨["p"], .attr ⟨"a", .static "v", ⟨1, none⟩⟩⟩ := by
  have hvalue : AttributeValue.decode? (.ofMembers (valueMembers type)) = some (.static "v") := by
    have htypes : required? "type" (named (valueMembers type)) = some type := rfl
    have hcontent : member? "value" (named (valueMembers type)) = some (some (.ofString "v")) :=
      rfl
    simp only [ofMembers_eq_object, AttributeValue.decode?, htypes, hcontent, htype,
      Option.bind_eq_bind, Option.bind_some]
    rfl
  have hnode : Node.decode? (attributed type) = some (.attr ⟨"a", .static "v", ⟨1, none⟩⟩) := by
    refine Node.decode?_object_iff.2 ⟨rfl, Attribute.ofMembers?_eq_some_iff.2 ⟨rfl, hvalue, rfl⟩⟩
  exact Document.read?_sourced (plain_attributed h) rfl hdepth hnode

/-- A document written back to front, with notes, is read as if written in order. -/
theorem Document.read?_of_rearranged_backwards :
    Document.read? (Json.compact allBackwards)
      = some ⟨["p"], .attr ⟨"a", .static "v", ⟨1, none⟩⟩⟩ := by
  have hstatic := Json.plain_ofString "static"
  have hvalue : Rearranged (fun role => role ≠ .type) .value
      (.ofMembers (valueMembers (.ofString "static")))
      (backwards (valueMembers (.ofString "static")) [("note", .ofNat 1)]) :=
    .backwards (.refl _) (unread_singleton (by decide) (plain_ofNat (by decide))) nofun
  have hattribute : Rearranged (fun role => role ≠ .type) .node (attributed (.ofString "static"))
      (backwards (attributeMembers (backwards (valueMembers (.ofString "static"))
        [("note", .ofNat 1)])) [("note", .array [.null])]) :=
    .backwards (.cons .same (.cons .same (.cons .same (.cons hvalue .nil))))
      (unread_singleton (by decide) plain_array_null) nofun
  have hall : Rearranged (fun role => role ≠ .type) .document
      (sourced (attributed (.ofString "static"))) allBackwards :=
    .backwards (.cons .same (.cons hattribute .nil)) (unread_singleton (by decide) trivial) nofun
  exact Document.read?_of_rearranged (read?_compact_sourced (plain_attributed hstatic))
    (Document.read?_attributed hstatic (by decide) rfl) (Json.read?_compact plain_allBackwards.kept) hall
    (by decide)

/-- A member beside the one that gives the type of a value is not ignored: if members could be
added to every object, a document would be refused with one that is read without it. -/
theorem Document.not_read?_of_rearranged_type :
    ¬ ∀ text other value rearranged document,
      Json.read? text = some value → Document.read? text = some document →
      Json.read? other = some rearranged →
      Rearranged (fun _ => True) .document value rearranged →
      rearranged.depth ≤ 127 → Document.read? other = some document := by
  intro h
  have htype : (Json.ofMembers [("static", .null)]).Plain :=
    plain_ofMembers.2 (plain_note trivial)
  have hother : (backwards [("static", .null)] [("x", .null)]).Plain :=
    plain_backwards (plain_note trivial) (plain_note trivial)
  have htypes : Rearranged (fun _ => True) .type (.ofMembers [("static", .null)])
      (backwards [("static", .null)] [("x", .null)]) :=
    .backwards (.refl _) (unread_singleton (by decide) trivial) trivial
  have hvalue : Rearranged (fun _ => True) .value
      (.ofMembers (valueMembers (.ofMembers [("static", .null)])))
      (.ofMembers (valueMembers (backwards [("static", .null)] [("x", .null)]))) :=
    .inside (.cons htypes (.cons .same .nil))
  have hattribute : Rearranged (fun _ => True) .node
      (attributed (.ofMembers [("static", .null)]))
      (attributed (backwards [("static", .null)] [("x", .null)])) :=
    .inside (.cons .same (.cons .same (.cons .same (.cons hvalue .nil))))
  have hread := h _ _ _ _ _ (read?_compact_sourced (plain_attributed htype))
    (Document.read?_attributed htype (by decide) rfl)
    (read?_compact_sourced (plain_attributed hother))
    (.inside (.cons .same (.cons hattribute .nil))) (by decide)
  rw [Document.read?, read?_compact_sourced (plain_attributed hother), Option.bind_eq_bind,
    Option.bind_some, sourced, ofMembers_eq_object, Document.decode?_object_iff] at hread
  obtain ⟨-, source, root, -, hroot, hparts⟩ := hread
  obtain rfl : attributed (backwards [("static", .null)] [("x", .null)]) = root :=
    Option.some.inj (Option.some.inj hroot)
  obtain ⟨_, _, -, -, -, -, hnode, -⟩ := Document.ofParts?_eq_some_iff.1 hparts
  have hnone : Node.decode? (attributed (backwards [("static", .null)] [("x", .null)])) = none :=
    rfl
  cases hnone.symm.trans hnode

end Samples

end Template
end WrapLint
