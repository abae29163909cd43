import ChainIndex.Proofs.Search.Index

/-!
# Which scripts the documents of a section run

Scripts about the ends of transactions are run by the first two sections only, scripts about roles
and properties by two others, one for each index of tokens (`Digested.ofKinds_endings`,
`Digested.ofKinds_roles`, `Digested.ofKinds_others`).

A statement about the documents with a script is made for all documents of a block, and this is how
most of them are put aside at once. Indices do not serve, as documents of several kinds share them,
and names of indices may coincide.
-/

namespace ChainIndex

/-- What a script is about. -/
inductive ScriptKind where
  | ending
  | role
  | properties
  /-- Any other matter. -/
  | other
deriving DecidableEq

/-- What a script is about. -/
def UpdateScript.kind : UpdateScript → ScriptKind
  | mergeEnding _ => .ending
  | setRole .. => .role
  | setProperties _ => .properties
  | _ => .other

/-- What the script of a document is about, if it runs one. -/
def Document.kind (d : Document) : ScriptKind :=
  match d.action with
  | .update script _ => script.kind
  | _ => .other

/-- All documents run scripts of some kinds. -/
def OfKinds (kinds : List ScriptKind) (docs : List Document) : Prop :=
  ∀ d ∈ docs, d.kind ∈ kinds

section

variable {α : Type} {index : String} {kinds : List ScriptKind}

theorem ofKinds_map {as : List α} {f : α → Document} (h : ∀ a, (f a).kind ∈ kinds) :
    OfKinds kinds (as.map f) :=
  List.forall_mem_map.mpr fun a _ => h a

theorem OfKinds.append {docs docs' : List Document} (h : OfKinds kinds docs)
    (h' : OfKinds kinds docs') : OfKinds kinds (docs ++ docs') :=
  List.forall_mem_append.mpr ⟨h, h'⟩

theorem OfKinds.mono {kinds' : List ScriptKind} {docs : List Document} (h : OfKinds kinds docs)
    (hsub : kinds ⊆ kinds') : OfKinds kinds' docs :=
  fun d hd => hsub (h d hd)

theorem kind_document_transaction (self : UInt32) (t : Transaction) :
    (t.document index self).kind = .other := by
  show Document.kind ⟨index, t.hash, t.action self⟩ = .other
  obtain h | ⟨_, h⟩ := t.action_cases self <;> rw [h] <;> rfl

theorem ofKinds_transactionDocuments (self : UInt32) (endings : Table Ending)
    (txs : List Transaction) :
    OfKinds [.other, .ending] (transactionDocuments index self endings txs) := by
  refine OfKinds.append (ofKinds_map fun t => ?_)
    (ofKinds_map fun _ => List.mem_cons_of_mem _ (List.mem_singleton_self _))
  exact List.mem_cons.mpr (.inl (kind_document_transaction self t))

theorem ofKinds_feeDocuments (fees : Table FeeCorrection) :
    OfKinds [.other] (feeDocuments index fees) := by
  refine ofKinds_map fun e => List.mem_singleton.mpr ?_
  obtain h | h := e.2.script_cases <;> rw [h] <;> rfl

theorem ofKinds_holdingDocuments (holdings : Table AccountRecord) :
    OfKinds [.other] (holdingDocuments index holdings) := by
  refine ofKinds_map fun a => List.mem_singleton.mpr ?_
  obtain ⟨-, h⟩ | ⟨-, h⟩ := a.holdingDocument_cases index <;> rw [h] <;> rfl

theorem ofKinds_delegationDocuments (delegations : Table Delegation) :
    OfKinds [.other] (delegationDocuments index delegations) := by
  refine ofKinds_map fun d => List.mem_singleton.mpr ?_
  obtain ⟨-, h⟩ | ⟨-, h⟩ := d.document_cases index <;> rw [h]
  · rfl
  · obtain ⟨_, -, h⟩ | ⟨_, -, -, h⟩ | ⟨-, -, h⟩ := d.script_cases <;> rw [h] <;> rfl

theorem ofKinds_tokenDocuments (issued : List TokenRecord) (updates : List ItemUpdate) :
    OfKinds [.other] (tokenDocuments index issued updates) := by
  refine OfKinds.append (ofKinds_map fun t => List.mem_singleton.mpr ?_)
    (ofKinds_map fun _ => List.mem_singleton_self _)
  obtain ⟨_, h⟩ | h | h := t.issueDocument_cases index <;> rw [h] <;> rfl

theorem kind_document_roleChange (role : String) (c : RoleChange) :
    (c.document index role).kind = .role := by
  obtain h | h := c.document_cases index role <;> rw [h] <;> rfl

theorem ofKinds_roleDocuments (b : RoleBook) :
    OfKinds [.role, .properties] (roleDocuments index b) := by
  refine OfKinds.append (List.forall_mem_flatMap.mpr fun e _ => ?_)
    (ofKinds_map fun _ => List.mem_cons_of_mem _ (List.mem_singleton_self _))
  exact ofKinds_map fun c => List.mem_cons.mpr (.inl (kind_document_roleChange e.1 c))

end

namespace Digested

variable (d : Digested) (tokens : ResolvedTokens) (names : IndexNames)

/-- The first two sections tell of ends. -/
theorem ofKinds_endings :
    ∀ s ∈ (d.sections tokens names).take 2, OfKinds [.other, .ending] s.2 := by
  simp only [sections, List.take_succ_cons, List.take_zero, List.forall_mem_cons,
    List.not_mem_nil, IsEmpty.forall_iff, implies_true, and_true]
  exact ⟨ofKinds_transactionDocuments _ _ _, ofKinds_transactionDocuments _ _ _⟩

/-- Two sections are about roles and properties. -/
theorem ofKinds_roles :
    ∀ s ∈ ((d.sections tokens names).drop 20).take 2, OfKinds [.role, .properties] s.2 := by
  simp only [sections, List.drop_succ_cons, List.drop_zero, List.take_succ_cons, List.take_zero,
    List.forall_mem_cons, List.not_mem_nil, IsEmpty.forall_iff, implies_true, and_true]
  exact ⟨ofKinds_roleDocuments _, ofKinds_roleDocuments _⟩

/-- All others are about none of this. -/
theorem ofKinds_others :
    ∀ s ∈ ((d.sections tokens names).drop 2).take 18 ++ (d.sections tokens names).drop 22,
      OfKinds [.other] s.2 := by
  have hscript : ∀ {α : Type} {as : List α} {f : α → Document}, (∀ a, (f a).kind = .other) →
      OfKinds [.other] (as.map f) :=
    fun h => ofKinds_map fun a => List.mem_singleton.mpr (h a)
  simp only [sections, List.drop_succ_cons, List.drop_zero, List.take_succ_cons, List.take_zero,
    List.cons_append, List.nil_append, List.forall_mem_cons, List.not_mem_nil,
    IsEmpty.forall_iff, implies_true, and_true]
  exact
    ⟨hscript fun _ => rfl, ofKinds_feeDocuments _, ofKinds_feeDocuments _, hscript fun _ => rfl,
      hscript fun _ => rfl, hscript fun _ => rfl, hscript fun _ => rfl, hscript fun _ => rfl,
      hscript fun _ => rfl, hscript fun _ => rfl, ofKinds_holdingDocuments _,
      hscript fun _ => rfl, hscript fun _ => rfl, hscript fun _ => rfl,
      ofKinds_tokenDocuments _ _, ofKinds_tokenDocuments _ _, ofKinds_delegationDocuments _,
      hscript fun _ => rfl, hscript fun _ => rfl, hscript fun _ => rfl⟩

/-- All sections but the first two are about roles, properties, or other matters. -/
theorem ofKinds_of_mem_drop {s : String × List Document}
    (hs : s ∈ (d.sections tokens names).drop 2) :
    OfKinds [.other] s.2 ∨ OfKinds [.role, .properties] s.2 := by
  have hsplit : (d.sections tokens names).drop 2 =
      ((d.sections tokens names).drop 2).take 18 ++
        (((d.sections tokens names).drop 20).take 2 ++ (d.sections tokens names).drop 22) := rfl
  rw [hsplit, List.mem_append, List.mem_append] at hs
  rcases hs with hs | hs | hs
  · exact .inl (d.ofKinds_others tokens names s (List.mem_append_left _ hs))
  · exact .inr (d.ofKinds_roles tokens names s hs)
  · exact .inl (d.ofKinds_others tokens names s (List.mem_append_right _ hs))

end Digested

end ChainIndex
