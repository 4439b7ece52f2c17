/-
# What a walk learns about component state

A walk that learns component state changes nothing but the set of bound identifiers.  Which
identifiers it binds is said of the document as it stands, so that neither the order of the visits
nor a second walk makes a difference.

* `Document.mem_repeats` : the names that repeat templates give at a node.
* `visitAll_learns`      : visits to places learn what is shown there, in whatever order.
* `collect_learns`       : the account of a whole walk.
-/
import DataBinding.Proofs.Binding.Decoding
import DataBinding.Proofs.Template.Obstacles
import DataBinding.Proofs.Template.Visits
import DataBinding.Proofs.Transform.Phases

namespace DataBinding

/-! ## Names of repeat templates -/

namespace Markup

/-- The names that are given on the way to an address among the given nodes. -/
def namesAlong : List Node → Address → List Text
  | _, [] => []
  | nodes, place :: address =>
    match nodes[place]? with
    | some node => node.repeatNames ++ namesAlong node.children address
    | none => []

mutual

/-- A node below another one is told the names that are given on the way to it. -/
theorem repeats_of_mem_placedNode (address : Address) :
    ∀ (node : Node) {above : List Tag}, ∀ p ∈ placedNode above address node, ∃ rest,
      p.address = address ++ rest ∧
        p.repeats = above.flatMap Tag.repeatNames ++ node.repeatNames ++ namesAlong node.children rest
  | .element tag children, above, p, hp => by
    rw [placedNode, List.mem_cons] at hp
    rcases hp with rfl | hp
    · refine ⟨[], (List.append_nil _).symm, ?_⟩
      rw [namesAlong, List.append_nil]
      rfl
    · obtain ⟨i, rest, haddress, hrepeats⟩ := repeats_of_mem_placedNodes address 0 children p hp
      rw [Nat.zero_add] at haddress
      refine ⟨i :: rest, haddress, ?_⟩
      rw [hrepeats, List.flatMap_append, List.flatMap_singleton]
      rfl
  | .text _, above, p, hp | .comment _, above, p, hp | .declaration _, above, p, hp
  | .instruction _, above, p, hp => by
    rw [placedNode, List.mem_singleton] at hp
    · refine ⟨[], ?_, ?_⟩
      · rw [hp, List.append_nil]
      · rw [hp, namesAlong, List.append_nil]
        rfl
    · intro _ _ h
      cases h

/-- A node among others or below them is told the names that are given on the way to it. -/
theorem repeats_of_mem_placedNodes (parent : Address) (place : Nat) :
    ∀ (nodes : List Node) {above : List Tag}, ∀ p ∈ placedNodes above parent place nodes, ∃ i rest,
      p.address = parent ++ (place + i) :: rest ∧
        p.repeats = above.flatMap Tag.repeatNames ++ namesAlong nodes (i :: rest)
  | [], _, p, hp => by cases hp
  | node :: nodes, above, p, hp => by
    rw [placedNodes, List.mem_append] at hp
    rcases hp with hp | hp
    · obtain ⟨rest, haddress, hrepeats⟩ := repeats_of_mem_placedNode (parent ++ [place]) node p hp
      refine ⟨0, rest, ?_, ?_⟩
      · rw [haddress, List.append_assoc]
        rfl
      · rw [hrepeats, List.append_assoc]
        rfl
    · obtain ⟨i, rest, haddress, hrepeats⟩ := repeats_of_mem_placedNodes parent (place + 1) nodes p hp
      refine ⟨i + 1, rest, ?_, hrepeats⟩
      rw [haddress]
      congr 2
      omega

end

/-- The node at the first part of an address. -/
theorem nodeAt?_take_one (nodes : List Node) (place : Nat) (address : Address) :
    Document.nodeAt? nodes ((place :: address).take (0 + 1)) = nodes[place]? := by
  rw [Nat.zero_add, List.take_succ_cons, List.take_zero, Document.nodeAt?_singleton]

/-- The node at a longer beginning of an address stands inside that at the first part. -/
theorem nodeAt?_take_succ (nodes : List Node) (place : Nat) {address : Address} {k : Nat}
    (hk : k < address.length) :
    Document.nodeAt? nodes ((place :: address).take (k + 1 + 1))
      = nodes[place]?.bind fun node => Document.nodeAt? node.children (address.take (k + 1)) := by
  have hne : address.take (k + 1) ≠ [] := by
    rw [← List.length_pos_iff, List.length_take]
    omega
  rw [List.take_succ_cons, Document.nodeAt?_cons _ _ hne]

/-- A name is given on the way to an address if a node gives it whose address is a beginning. -/
theorem mem_namesAlong (nodes : List Node) (address : Address) (x : Text) :
    x ∈ namesAlong nodes address ↔
      ∃ k, k < address.length ∧
        ∃ node, Document.nodeAt? nodes (address.take (k + 1)) = some node ∧ x ∈ node.repeatNames := by
  induction address generalizing nodes with
  | nil => simp [namesAlong]
  | cons place address ih =>
    rw [namesAlong, List.length_cons]
    cases hnode : nodes[place]? with
    | none =>
      simp only [List.not_mem_nil, false_iff]
      rintro ⟨k, hk, node, hget, -⟩
      cases k with
      | zero =>
        rw [nodeAt?_take_one, hnode] at hget
        cases hget
      | succ k =>
        rw [nodeAt?_take_succ _ _ (Nat.lt_of_succ_lt_succ hk), hnode] at hget
        cases hget
    | some node =>
      simp only [List.mem_append, ih]
      constructor
      · rintro (hx | ⟨k, hk, inner, hget, hx⟩)
        · exact ⟨0, Nat.succ_pos _, node, (nodeAt?_take_one ..).trans hnode, hx⟩
        · refine ⟨k + 1, Nat.succ_lt_succ hk, inner, ?_, hx⟩
          rw [nodeAt?_take_succ _ _ hk, hnode]
          exact hget
      · rintro ⟨k, hk, inner, hget, hx⟩
        cases k with
        | zero =>
          rw [nodeAt?_take_one, hnode] at hget
          obtain rfl := Option.some.inj hget
          exact .inl hx
        | succ k =>
          have hk := Nat.lt_of_succ_lt_succ hk
          rw [nodeAt?_take_succ _ _ hk, hnode] at hget
          exact .inr ⟨k, hk, inner, hget, hx⟩

/-- The addresses of ancestors are the beginnings of an address. -/
theorem Document.mem_ancestors {address outer : Address} :
    outer ∈ ancestors address ↔ ∃ k, 0 < k ∧ k < address.length ∧ outer = address.take k := by
  have hrange : ∀ k, k ∈ (List.range address.length).drop 1 ↔ 0 < k ∧ k < address.length := by
    intro k
    rw [List.range_eq_range', List.drop_range', List.mem_range'_1]
    omega
  rw [ancestors, List.mem_map]
  constructor
  · rintro ⟨k, hk, rfl⟩
    obtain ⟨hpos, hlt⟩ := (hrange k).mp (List.mem_reverse.mp hk)
    exact ⟨k, hpos, hlt, rfl⟩
  · rintro ⟨k, hpos, hlt, rfl⟩
    exact ⟨k, List.mem_reverse.mpr ((hrange k).mpr ⟨hpos, hlt⟩), rfl⟩

/-- The names at an address of a document are those that are given on the way to it. -/
theorem Document.mem_repeatNamesAt (document : Document) (address : Address) (x : Text) :
    x ∈ document.repeatNamesAt address ↔ x ∈ namesAlong document.children address := by
  have hnames : ∀ outer, x ∈ ((document.get? outer).map Node.repeatNames).getD [] ↔
      ∃ node, document.get? outer = some node ∧ x ∈ node.repeatNames := by
    intro outer
    cases document.get? outer <;> simp
  rw [mem_namesAlong, repeatNamesAt, List.mem_flatMap]
  simp only [hnames]
  constructor
  · rintro ⟨outer, houter, node, hget, hx⟩
    rcases List.mem_cons.mp houter with rfl | houter
    · cases outer with
      | nil => cases hget
      | cons place rest =>
        refine ⟨rest.length, Nat.lt_succ_self _, node, ?_, hx⟩
        rw [← List.length_cons, List.take_length]
        exact hget
    · obtain ⟨k, hpos, hk, rfl⟩ := mem_ancestors.mp houter
      refine ⟨k - 1, by omega, node, ?_, hx⟩
      rw [Nat.sub_add_cancel hpos]
      exact hget
  · rintro ⟨k, hk, node, hget, hx⟩
    refine ⟨address.take (k + 1), ?_, node, hget, hx⟩
    rcases Nat.lt_or_ge (k + 1) address.length with hlt | hge
    · exact List.mem_cons_of_mem _ (mem_ancestors.mpr ⟨k + 1, Nat.succ_pos k, hlt, rfl⟩)
    · rw [List.take_of_length_le hge]
      exact List.mem_cons_self

/-- A node is told the names at its address. -/
theorem Document.mem_repeats {document : Document} {p : Placed} (hp : p ∈ document.placed) (x : Text) :
    x ∈ p.repeats ↔ x ∈ document.repeatNamesAt p.address := by
  obtain ⟨i, rest, haddress, hrepeats⟩ := repeats_of_mem_placedNodes [] 0 document.children p hp
  rw [Nat.zero_add, List.nil_append] at haddress
  rw [mem_repeatNamesAt, haddress, hrepeats]
  rfl

/-- The places of a node hold the names that the node is told. -/
theorem Placed.repeats_of_mem_sites {p : Placed} {site : Site} (h : site ∈ p.sites) :
    site.repeats = p.repeats := by
  obtain ⟨address, above, node⟩ := p
  cases node with
  | text data =>
    simp only [Placed.sites] at h
    split at h
    · cases h
    · rw [List.mem_singleton.mp h]
  | element tag children =>
    simp only [Placed.sites] at h
    split at h
    · cases h
    · obtain ⟨⟨name, value⟩, -, hfound⟩ := List.mem_filterMap.mp h
      match value with
      | none => cases hfound
      | some [] => cases hfound
      | some (c :: t) => rw [← Option.some.inj hfound]
  | comment _ | declaration _ | instruction _ => cases h

end Markup

/-! ## What two-way bindings show -/

/-- **A two-way binding shows that an identifier is written to**: it is the root of a path of an
expression that a two-way binding admits, or the text is no expression but a path with an accessor
that starts with the identifier. -/
inductive Occurrence.Shows (o : Occurrence) (identifier : Text) : Prop
  | path {e : Expr} {path : Text} (read : o.read = .ok e)
      (admissible : e.kind.isAdmissible true = true) (mem : path ∈ e.paths)
      (root : Path.root path = identifier)
  | accessor {fault : Expression.Fault} (read : o.read = .error fault)
      (accessor : Path.hasAccessor o.expression = true)
      (leading : Path.leadingName? o.expression = some identifier)

/-- The written roots of a binding are the identifiers that it shows. -/
theorem Occurrence.mem_writtenRoots (o : Occurrence) (identifier : Text) :
    identifier ∈ o.writtenRoots ↔ o.Shows identifier := by
  unfold writtenRoots
  constructor
  · intro h
    cases hread : o.read with
    | ok e =>
      rw [hread] at h
      cases hadmissible : e.kind.isAdmissible true with
      | true =>
        simp only [hadmissible, if_true] at h
        obtain ⟨path, hmem, hroot⟩ := List.mem_map.mp h
        exact .path hread hadmissible hmem hroot
      | false => simp [hadmissible] at h
    | error fault =>
      rw [hread] at h
      cases haccessor : Path.hasAccessor o.expression with
      | true =>
        simp only [haccessor, if_true, Option.mem_toList] at h
        exact .accessor hread haccessor h
      | false => simp [haccessor] at h
  · rintro (⟨hread, hadmissible, hmem, hroot⟩ | ⟨hread, haccessor, hleading⟩)
    · rw [hread]
      simp only [hadmissible, if_true]
      exact List.mem_map.mpr ⟨_, hmem, hroot⟩
    · rw [hread]
      simp [haccessor, hleading]

/-! ## Scopes that learn -/

namespace Scope

variable {s s' s'' : Scope} {P Q : Text → Prop}

/-- A scope in which some more identifiers are bound, and nothing else is different. -/
structure Learns (s : Scope) (P : Text → Prop) (s' : Scope) : Prop where
  frame : s' = { s with bindings := s'.bindings }
  bindings : ∀ x, x ∈ s'.bindings ↔ x ∈ s.bindings ∨ P x

theorem Learns.trans (h : s.Learns P s') (h' : s'.Learns Q s'') :
    s.Learns (fun x => P x ∨ Q x) s'' where
  frame := by
    rw [h'.frame, h.frame]
  bindings x := by
    rw [h'.bindings, h.bindings, or_assoc]

/-- Binding identifiers binds these. -/
theorem learns_bindAll (s : Scope) (identifiers : List Text) :
    s.Learns (· ∈ identifiers) (s.bindAll identifiers) := by
  unfold bindAll
  induction identifiers generalizing s with
  | nil => exact ⟨rfl, fun x => by simp⟩
  | cons identifier identifiers ih =>
    have hfirst : s.Learns (· = identifier) (s.bind identifier) := by
      unfold bind
      split
      · rename_i hbound
        refine ⟨rfl, fun x => ?_⟩
        have hmem : identifier ∈ s.bindings := by simpa [isBound] using hbound
        constructor
        · exact .inl
        · rintro (hx | rfl)
          · exact hx
          · exact hmem
      · exact ⟨rfl, fun x => by simp⟩
    have hall := hfirst.trans (ih (s.bind identifier))
    refine ⟨hall.frame, fun x => ?_⟩
    rw [List.mem_cons]
    exact hall.bindings x

/-- Binding what is bound changes nothing. -/
theorem bindAll_eq_self {identifiers : List Text} (h : ∀ x ∈ identifiers, x ∈ s.bindings) :
    s.bindAll identifiers = s := by
  unfold bindAll
  induction identifiers with
  | nil => rfl
  | cons identifier identifiers ih =>
    rw [List.forall_mem_cons] at h
    have hbound : s.isBound identifier = true := by simpa [isBound] using h.1
    rw [List.foldl_cons, bind, if_pos hbound]
    exact ih h.2

end Scope

/-! ## Walks that learn -/

namespace ComponentState

open Markup (Document Placed visitAll)

/-- What a place shows depends on the globals of a scope only. -/
theorem identifiersAt_congr {s s' : Scope} (h : s'.globals = s.globals) (site : Site) :
    identifiersAt site s' = identifiersAt site s := by
  unfold identifiersAt identifiersOf mayHold Scope.isGlobal
  rw [h]

/-- An identifier is learned at a place if a two-way binding there shows it, unless it is the object
itself, a global or a name of a repeat. -/
theorem mem_identifiersAt (site : Site) (scope : Scope) (x : Text) :
    x ∈ identifiersAt site scope ↔
      (∃ o ∈ Occurrence.found site.raw site.text, o.direction = .twoWay ∧ o.Shows x) ∧
        x ≠ Expr.thisName ∧ ¬ scope.isGlobal x = true ∧ x ∉ site.repeats := by
  have hmay : mayHold scope site.repeats x = true ↔
      x ≠ Expr.thisName ∧ ¬ scope.isGlobal x = true ∧ x ∉ site.repeats := by
    simp only [mayHold, Bool.not_eq_true', Bool.or_eq_false_iff, List.contains_eq_mem,
      decide_eq_false_iff_not, beq_eq_false_iff_ne, Bool.not_eq_true]
    tauto
  simp only [identifiersAt, identifiersOf, List.mem_filter, hmay, List.mem_flatMap,
    Occurrence.mem_writtenRoots, Occurrence.isTwoWay, beq_iff_eq, and_assoc]

/-- Visits to places learn what is shown there, in whatever order they are made. -/
theorem visitAll_learns {sites : List Site} {scope last : Scope}
    (h : visitAll (Attempt.visitor visit) sites (.ok scope) = .ok last) :
    scope.Learns (fun x => ∃ site ∈ sites, x ∈ identifiersAt site scope) last := by
  induction sites generalizing scope with
  | nil =>
    obtain rfl := Except.ok.inj h
    exact ⟨rfl, fun x => by simp⟩
  | cons site sites ih =>
    obtain ⟨answer, after, hvisit, hrest⟩ := Markup.exists_of_visitAll_cons h
    obtain rfl := (visit_cases hvisit).2
    have hfirst := scope.learns_bindAll (identifiersAt site scope)
    have hglobals : (scope.bindAll (identifiersAt site scope)).globals = scope.globals := by
      rw [hfirst.frame]
    have hall := hfirst.trans (ih hrest)
    refine ⟨hall.frame, fun x => (hall.bindings x).trans ?_⟩
    simp only [List.exists_mem_cons_iff, identifiersAt_congr hglobals]

/-- **A document shows that an identifier is component state** if a two-way binding in a string below
a host template does, unless it is the object itself, a global or a name that a repeat template gives
there. -/
def ShownIn (document : Document) (scope : Scope) (x : Text) : Prop :=
  ∃ p ∈ document.hosted, ∃ site ∈ p.sites, ∃ o ∈ Occurrence.found site.raw site.text,
    o.direction = .twoWay ∧ o.Shows x ∧
      x ≠ Expr.thisName ∧ ¬ scope.isGlobal x = true ∧ x ∉ document.repeatNamesAt p.address

/-- What a document shows is what is shown at its places. -/
theorem shownIn_iff (document : Document) (scope : Scope) (x : Text) :
    ShownIn document scope x ↔ ∃ site ∈ document.sites, x ∈ identifiersAt site scope := by
  have hrepeats : ∀ p ∈ document.hosted, ∀ site ∈ p.sites,
      (x ∈ site.repeats ↔ x ∈ document.repeatNamesAt p.address) := by
    intro p hp site hsite
    rw [Document.hosted_eq] at hp
    rw [Placed.repeats_of_mem_sites hsite]
    exact Document.mem_repeats (List.mem_of_mem_filter hp) x
  rw [Document.sites_eq]
  simp only [List.mem_flatMap, mem_identifiersAt]
  constructor
  · rintro ⟨p, hp, site, hsite, o, ho, htwo, hshows, hthis, hglobal, hrepeat⟩
    exact ⟨site, ⟨p, hp, hsite⟩, ⟨o, ho, htwo, hshows⟩, hthis, hglobal,
      fun h => hrepeat ((hrepeats p hp site hsite).mp h)⟩
  · rintro ⟨site, ⟨p, hp, hsite⟩, ⟨o, ho, htwo, hshows⟩, hthis, hglobal, hrepeat⟩
    exact ⟨p, hp, site, hsite, o, ho, htwo, hshows, hthis, hglobal,
      fun h => hrepeat ((hrepeats p hp site hsite).mpr h)⟩

/-- Nothing stops learning from places where the bindings are found. -/
theorem obstacle?_eq_none_iff {site : Site} :
    obstacle? site = none ↔ (Direction.twoWay.opening <:+: site.text →
      ∃ os, Occurrence.find site.raw site.text = .ok os) := by
  have hfind : (∃ os, Occurrence.find site.raw site.text = .ok os) ↔
      Occurrence.overlong? site.raw site.text = none := by
    simp only [Occurrence.find_eq_ok_iff]
    exact ⟨fun ⟨_, h, _⟩ => h, fun h => ⟨_, h, rfl⟩⟩
  rw [hfind, ← Text.holds_iff, obstacle?]
  split
  · rename_i hholds
    rw [Option.map_eq_none_iff]
    exact ⟨fun h _ => h, fun h => h hholds⟩
  · rename_i hholds
    exact ⟨fun _ h => absurd h hholds, fun _ => rfl⟩

/-- Places can be learned from exactly if their bindings are found. -/
theorem exists_visitAll_iff (sites : List Site) (scope : Scope) :
    (∃ last, visitAll (Attempt.visitor visit) sites (.ok scope) = .ok last) ↔
      ∀ site ∈ sites, Direction.twoWay.opening <:+: site.text →
        ∃ os, Occurrence.find site.raw site.text = .ok os := by
  obtain ⟨hstops, hpasses⟩ := Markup.visitAll_stopsAt visit_stopsAt sites scope trivial
  simp only [← obstacle?_eq_none_iff, ← List.findSome?_eq_none_iff]
  refine ⟨fun ⟨last, hlast⟩ => ?_, hpasses⟩
  cases hobstacle : sites.findSome? obstacle? with
  | none => rfl
  | some obstacle =>
    obtain ⟨stop, hstop, -⟩ := hstops obstacle hobstacle
    cases hlast.symm.trans hstop

/-- Visits to the strings of a document in any order learn the declared properties and what the
document shows. -/
theorem learns_of_perm {document : Document} {sites : List Site} (h : sites.Perm document.sites)
    {declared : List Text} {scope last : Scope}
    (hvisit : visitAll (Attempt.visitor visit) sites (.ok (scope.bindAll declared)) = .ok last) :
    scope.Learns (fun x => x ∈ declared ∨ ShownIn document scope x) last := by
  have hdeclared := scope.learns_bindAll declared
  have hglobals : (scope.bindAll declared).globals = scope.globals := by rw [hdeclared.frame]
  have hall := hdeclared.trans (visitAll_learns hvisit)
  refine ⟨hall.frame, fun x => (hall.bindings x).trans ?_⟩
  simp only [shownIn_iff, h.mem_iff, identifiersAt_congr hglobals]

/-- Learning again what is known changes nothing. -/
theorem visitAll_eq_self {sites : List Site} {scope last : Scope}
    (hvisit : visitAll (Attempt.visitor visit) sites (.ok scope) = .ok last)
    (h : ∀ site ∈ sites, ∀ x ∈ identifiersAt site scope, x ∈ scope.bindings) : last = scope := by
  induction sites with
  | nil => exact (Except.ok.inj hvisit).symm
  | cons site sites ih =>
    rw [List.forall_mem_cons] at h
    obtain ⟨answer, after, hfirst, hrest⟩ := Markup.exists_of_visitAll_cons hvisit
    obtain rfl := (visit_cases hfirst).2
    rw [Scope.bindAll_eq_self h.1] at hrest
    exact ih hrest h.2

/-- Learning leaves a document as it is. -/
theorem attempt_eq_self {document document' : Document} {scope last : Scope}
    (h : document.attempt visit scope = .ok (document', last)) : document' = document := by
  have hidle : Markup.IsIdleUnder (Attempt.visitor visit) fun reached => ∃ last, reached = .ok last := by
    rintro site reached ⟨after, hafter⟩
    obtain ⟨state, answer, rfl, hvisit, hanswer⟩ := Attempt.exists_of_visitor hafter
    refine ⟨⟨state, rfl⟩, ?_⟩
    rw [hanswer, (visit_cases hvisit).1]
    exact nofun
  rw [Document.attempt_eq_ok_iff] at h
  have hsame := document.walk_eq_self hidle (.ok scope) ⟨last, congrArg Prod.snd h⟩
  rw [← hsame, h]

/-- What a document learns comes with the document itself. -/
theorem attempt_of_collect {document : Document} {declared : List Text} {scope last : Scope}
    (h : collect document declared scope = .ok last) :
    document.attempt visit (scope.bindAll declared) = .ok (document, last) := by
  obtain ⟨⟨document', last⟩, hattempt, rfl⟩ := exists_of_map_eq_ok h
  obtain rfl := attempt_eq_self hattempt
  exact hattempt

end ComponentState

/-- Rewriting a document leaves all settings as they are. -/
theorem Rewrite.sameSettings_document {document document' : Markup.Document} {scope last : Scope}
    (h : Rewrite.document document scope = .ok (document', last)) : scope.SameSettings last :=
  Markup.Document.attempt_keeps visit_keepsMarkers
    (fun _ _ _ _ hvisit hreached => hreached.trans (sameSettings_visit hvisit)) h (.refl scope)

/-- The declared properties and what the document shows are learned. -/
theorem ComponentState.learns_collect {document : Markup.Document} {declared : List Text}
    {scope last : Scope} (h : collect document declared scope = .ok last) :
    scope.Learns (fun x => x ∈ declared ∨ ShownIn document scope x) last :=
  learns_of_perm (.refl document.sites) (collect_eq_ok_iff.mp h)

/-- Learning again from a document learns nothing. -/
theorem ComponentState.collect_again {document : Markup.Document} {declared again : List Text}
    {scope known : Scope} (h : collect document declared scope = .ok known)
    (hagain : ∀ x ∈ again, x ∈ declared) : collect document again known = .ok known := by
  have hlearns := learns_collect h
  have hglobals : known.globals = scope.globals := by rw [hlearns.frame]
  -- behind the walk everything is bound that is declared or shown
  have hdeclared : ∀ x ∈ again, x ∈ known.bindings := fun x hx =>
    (hlearns.bindings x).mpr (.inr (.inl (hagain x hx)))
  have hshown : ∀ site ∈ document.sites, ∀ x ∈ identifiersAt site known, x ∈ known.bindings := by
    intro site hsite x hx
    rw [identifiersAt_congr hglobals] at hx
    exact (hlearns.bindings x).mpr (.inr (.inr ((shownIn_iff document scope x).mpr ⟨site, hsite, hx⟩)))
  rw [collect_eq_ok_iff] at h ⊢
  rw [Scope.bindAll_eq_self hdeclared]
  obtain ⟨last, hlast⟩ := (exists_visitAll_iff _ known).mpr ((exists_visitAll_iff _ _).mp ⟨known, h⟩)
  rw [hlast, visitAll_eq_self hlast hshown]

/-- **Learning the state of a component.**  A walk that learns comes to the end exactly if the bindings
are found in each string with the opening of a two-way binding.  It then leaves the document as it is
and binds the declared properties and what the document shows, and nothing else in the scope changes.
The strings may be visited in any order, a second walk learns nothing, and a walk that rewrites changes
no binding. -/
theorem ComponentState.collect_learns (document : Markup.Document) (declared : List Text)
    (scope : Scope) :
    ((∃ last, collect document declared scope = .ok last) ↔
      ∀ p ∈ document.hosted, ∀ site ∈ p.sites, Direction.twoWay.opening <:+: site.text →
        ∃ os, Occurrence.find site.raw site.text = .ok os) ∧
    (∀ last, collect document declared scope = .ok last →
      document.attempt visit (scope.bindAll declared) = .ok (document, last) ∧
      scope.Learns (fun x => x ∈ declared ∨ ShownIn document scope x) last ∧
      (∀ sites, sites.Perm document.sites → ∃ last',
        Markup.visitAll (Attempt.visitor visit) sites (.ok (scope.bindAll declared)) = .ok last' ∧
          scope.Learns (fun x => x ∈ declared ∨ ShownIn document scope x) last') ∧
      ∀ again, (∀ x ∈ again, x ∈ declared) → collect document again last = .ok last) ∧
    ∀ other other' start after, Rewrite.document other start = .ok (other', after) →
      after.bindings = start.bindings := by
  have hreturns : (∃ last, collect document declared scope = .ok last) ↔
      ∀ site ∈ document.sites, Direction.twoWay.opening <:+: site.text →
        ∃ os, Occurrence.find site.raw site.text = .ok os := by
    simp only [collect_eq_ok_iff]
    exact exists_visitAll_iff _ _
  refine ⟨hreturns.trans ?_, fun last h => ⟨attempt_of_collect h, learns_collect h, ?_,
    fun again hagain => collect_again h hagain⟩, fun other other' start after h =>
    (Rewrite.sameSettings_document h).bindings⟩
  · rw [Markup.Document.sites_eq]
    simp only [List.mem_flatMap]
    exact ⟨fun h p hp site hsite => h site ⟨p, hp, hsite⟩,
      fun h site ⟨p, hp, hsite⟩ => h p hp site hsite⟩
  · intro sites hperm
    have hall := hreturns.mp ⟨last, h⟩
    obtain ⟨last', hlast'⟩ := (exists_visitAll_iff _ (scope.bindAll declared)).mpr
      fun site hsite => hall site (hperm.mem_iff.mp hsite)
    exact ⟨last', hlast', learns_of_perm hperm hlast'⟩

/-- A host template that shows a two-way binding of a reference with a digit too much. -/
def ComponentState.longDocument : Markup.Document :=
  ⟨[.element ⟨"template".toList, [], some "<template>".toList, false, true, []⟩
    [.text (Occurrence.longBinding .twoWay)]]⟩

/-- Nothing is learned from it, since its binding is not found. -/
theorem ComponentState.not_collect_longDocument :
    ¬ ∃ last, collect longDocument [] (.ofOptions "x-a".toList {} []) = .ok last := by
  have hsites : longDocument.sites = [⟨Occurrence.longBinding .twoWay, true, none, []⟩] := rfl
  have hopening : Direction.twoWay.opening <:+: Occurrence.longBinding .twoWay :=
    (List.prefix_append ..).isInfix
  obtain ⟨digits, hdigits⟩ := Occurrence.exists_overlong?_longBinding .twoWay
  rintro ⟨last, hlast⟩
  rw [collect_eq_ok_iff, hsites] at hlast
  obtain ⟨os, hos⟩ := (exists_visitAll_iff _ _).mp ⟨last, hlast⟩ _ List.mem_cons_self hopening
  cases (Occurrence.find_eq_ok_iff.mp hos).1.symm.trans hdigits

end DataBinding
