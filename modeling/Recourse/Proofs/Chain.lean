import Recourse.Fault.Chain
import Recourse.Fault.Coding
import Recourse.Fault.Transience

/-!
# Chains under wrapping

Wrapping puts one member in front of a chain and leaves the rest as it is, and
reporting a fault does the same or nothing at all.  So whatever is wrapped or
reported keeps all its members, in order, at the end of the new chain.

* `Walk` is what one finds who follows the sources one by one, and `walk_iff`
  says that this is the chain.
* `containsCode_iff` brings the searches for a code down to the codes of the
  chain, whether they are made from a coded error or from any fault.
* `firstCoded?_eq_some_iff` and `firstCoded?_eq_none_iff` say what the search
  for a coded member finds.
-/

namespace Recourse

namespace CodedError

theorem codes_wrap (e : CodedError) (f : Fault) : (e.wrap f).codes = e.code :: f.codes := rfl

theorem chain_suffix_wrap (e : CodedError) (f : Fault) : f.chain <:+ (e.wrap f).chain :=
  List.suffix_cons _ _

/-- The verdict on an error is the verdict on its code. -/
theorem isPermanent_wrap (e : CodedError) (f : Fault) :
    (e.wrap f).isPermanent = e.isPermanent := rfl

end CodedError

namespace Fault

/-- A fault keeps its chain when it is reported. -/
theorem chain_suffix_toCoded (f : Fault) : f.chain <:+ f.toCoded.chain := by
  unfold toCoded
  cases hcoded : f.asCoded? with
  | some e =>
    obtain rfl := toFault_of_asCoded? hcoded
    exact List.suffix_refl _
  | none => cases f <;> exact CodedError.chain_suffix_wrap _ _

/-- The codes along a chain are found along every chain that ends in it. -/
theorem codes_suffix {f g : Fault} (h : f.chain <:+ g.chain) : f.codes <:+ g.codes := by
  obtain ⟨front, hfront⟩ := h
  refine ⟨(front.filterMap asCoded?).map (·.code), ?_⟩
  rw [codes, codes, codedMembers, codedMembers, ← hfront, List.filterMap_append, List.map_append]

/-! ## Following the sources -/

/-- The faults that are met on the way from a fault to the one that names no
source. -/
inductive Walk : Fault → List Fault → Prop
  | innermost {f : Fault} (hsource : f.source = none) : Walk f [f]
  | onward {f s : Fault} {rest : List Fault} (hsource : f.source = some s) (hrest : Walk s rest) :
      Walk f (f :: rest)

theorem Walk.eq_chain {f : Fault} {xs : List Fault} (h : Walk f xs) : xs = f.chain := by
  induction h with
  | innermost hsource => rw [chain, sources_eq, hsource]
  | onward hsource _ ih => rw [chain, sources_eq, hsource, ih]

/-- A fault that names the same source as another goes on as that one does. -/
theorem Walk.of_same_source {f g : Fault} (hsource : g.source = f.source)
    (h : Walk f f.chain) : Walk g g.chain := by
  have hsources : g.sources = f.sources := by rw [sources_eq, sources_eq, hsource]
  rw [chain, hsources]
  generalize hxs : f.chain = xs at h
  cases h with
  | innermost hnone =>
    obtain ⟨_, hrest⟩ := List.cons.inj hxs
    rw [hrest]
    exact .innermost (hsource.trans hnone)
  | onward hsome hrest =>
    obtain ⟨_, hsame⟩ := List.cons.inj hxs
    rw [hsame]
    exact .onward (hsource.trans hsome) hrest

theorem walk_chain (f : Fault) : Walk f f.chain := by
  induction f with
  | codedOver _ _ _ ih => exact .onward rfl ih
  | foreignOver _ _ _ ih => exact .onward rfl ih
  | io kind payload ih =>
    have hsource : (io kind payload).source = payload.source := rfl
    exact ih.of_same_source hsource
  | _ => exact .innermost rfl

theorem walk_iff (f : Fault) (xs : List Fault) : Walk f xs ↔ xs = f.chain := by
  constructor
  · exact Walk.eq_chain
  · rintro rfl
    exact walk_chain f

/-! ## Searching for a code -/

theorem hasOuterCode_iff {code : Code} {f : Fault} :
    hasOuterCode code f = true ↔ ∃ e, f.asCoded? = some e ∧ e.code = code := by
  unfold hasOuterCode
  cases f.asCoded? <;> simp

/-- A fault contains the codes of its chain and no others. -/
theorem containsCode_iff (f : Fault) (code : Code) :
    f.containsCode code = true ↔ code ∈ f.codes := by
  rw [containsCode, List.any_eq_true, codes, codedMembers, List.mem_map]
  constructor
  · rintro ⟨g, hg, houter⟩
    obtain ⟨e, hcoded, hcode⟩ := hasOuterCode_iff.1 houter
    exact ⟨e, List.mem_filterMap.2 ⟨g, hg, hcoded⟩, hcode⟩
  · rintro ⟨e, he, hcode⟩
    obtain ⟨g, hg, hcoded⟩ := List.mem_filterMap.1 he
    exact ⟨g, hg, hasOuterCode_iff.2 ⟨e, hcoded, hcode⟩⟩

theorem codes_eq_nil_iff (f : Fault) : f.codes = [] ↔ ∀ g ∈ f.chain, g.asCoded? = none := by
  rw [codes, List.map_eq_nil_iff, codedMembers, List.filterMap_eq_nil_iff]

/-- The coded error that is found is a member of the chain, and no coded one
comes before it. -/
theorem firstCoded?_eq_some_iff (f : Fault) (e : CodedError) :
    f.firstCoded? = some e ↔
      ∃ front rest, f.chain = front ++ e.toFault :: rest ∧ ∀ g ∈ front, g.asCoded? = none := by
  rw [firstCoded?, List.findSome?_eq_some_iff]
  constructor
  · rintro ⟨front, g, rest, hchain, hcoded, hfront⟩
    obtain rfl := toFault_of_asCoded? hcoded
    exact ⟨front, rest, hchain, hfront⟩
  · rintro ⟨front, rest, hchain, hfront⟩
    exact ⟨front, e.toFault, rest, hchain, e.asCoded?_toFault, hfront⟩

/-- No coded error is found exactly if there is no code to search for. -/
theorem firstCoded?_eq_none_iff (f : Fault) :
    f.firstCoded? = none ↔ ∀ code, f.containsCode code = false := by
  rw [firstCoded?, List.findSome?_eq_none_iff, ← codes_eq_nil_iff, List.eq_nil_iff_forall_not_mem]
  constructor
  · intro hnone code
    rw [Bool.eq_false_iff, ne_eq, containsCode_iff]
    exact hnone code
  · intro hnone code
    rw [← containsCode_iff, hnone code]
    exact Bool.false_ne_true

theorem chain_eq_append_root (f : Fault) : ∃ front, f.chain = front ++ [f.root] :=
  ⟨f.chain.dropLast, (List.dropLast_concat_getLast f.chain_ne_nil).symm⟩

end Fault

namespace CodedError

/-- The search from a coded error is the search from it as a fault. -/
theorem hasCode_iff (e : CodedError) (code : Code) :
    e.hasCode code = true ↔ code ∈ e.codes := by
  rw [hasCode, List.any_eq_true, codes, Fault.codes, List.mem_map]
  simp only [beq_iff_eq]

theorem isKind_wrap_iff (e target : CodedError) (f : Fault) :
    (e.wrap f).isKind target = true ↔ e.code = target.code ∨ f.contains target = true := by
  rw [isKind, hasCode_iff, codes_wrap, List.mem_cons, Fault.contains, Fault.containsCode_iff]
  exact or_congr_left eq_comm

end CodedError

/-! ## Every walk finds the same -/

/-- A chain is what following the sources gives.  Wrapping puts the wrapping
error, over nothing but its new cause, in front of a chain and its code in
front of the codes, so a wrapped error is of its own kind and of all the kinds
below it.  The searches for a code agree, the first coded error is the first
coded member of the chain, and the root is its last member. -/
theorem walks_agree :
    (∀ (f : Fault) (xs : List Fault), f.Walk xs ↔ xs = f.chain) ∧
    (∀ (e : CodedError) (f : Fault),
      (e.wrap f).chain = .codedOver e.code e.message f :: f.chain ∧
      (e.wrap f).codes = e.code :: (f.chain.filterMap Fault.asCoded?).map (·.code) ∧
      ∀ target : CodedError,
        (e.wrap f).isKind target = true ↔ e.code = target.code ∨ f.contains target = true) ∧
    (∀ (e : CodedError) (code : Code),
      (e.hasCode code = true ↔ code ∈ e.codes) ∧
      (e.hasCode code = true ↔ e.toFault.containsCode code = true)) ∧
    (∀ (f : Fault) (e : CodedError),
      f.firstCoded? = some e ↔
        ∃ front rest, f.chain = front ++ e.toFault :: rest ∧ ∀ g ∈ front, g.asCoded? = none) ∧
    (∀ f : Fault, f.firstCoded? = none ↔ ∀ code, f.containsCode code = false) ∧
    (∀ f : Fault, ∃ front, f.chain = front ++ [f.root]) ∧
    ∀ e : CodedError, ∃ front, e.chain = front ++ [e.root] := by
  refine ⟨Fault.walk_iff, ?_, ?_, Fault.firstCoded?_eq_some_iff, Fault.firstCoded?_eq_none_iff,
    Fault.chain_eq_append_root, fun e => e.toFault.chain_eq_append_root⟩
  · intro e f
    exact ⟨rfl, rfl, fun target => e.isKind_wrap_iff target f⟩
  · intro e code
    refine ⟨e.hasCode_iff code, ?_⟩
    rw [e.hasCode_iff code, Fault.containsCode_iff]
    rfl

/-- An input or output failure stands for its payload, so the coded payload is
no member of the chain, while the error below it is. -/
example :
    let lost := Builtin.peerConnection.toFault
    let failure := Fault.io .other (Builtin.timeout.wrap lost).toFault
    let e := Builtin.readFailure.wrap failure
    e.chain = [e.toFault, failure, lost] ∧ e.isKind Builtin.timeout = false ∧
      e.isKind Builtin.peerConnection = true := by
  decide

end Recourse
