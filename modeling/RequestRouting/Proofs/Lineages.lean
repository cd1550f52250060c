import RequestRouting.Proofs.JoinedReading
import RequestRouting.Proofs.Remounting
import RequestRouting.TextEvent

/-!
# What groups do to the patterns inside them

The lineage of a handler are the patterns that one goes past on the way to it, from the
outermost group down to its own. In a dispatcher, the text of a handler's pattern is that of
its lineage put together (`Mounted`). Groups are put together from the inside out, and each of
them reads the texts inside it again, so that a tree is accepted iff every text along a lineage
is, wherever it starts (`Handler.exists_assembleAll_iff`).

That the texts from the outermost group on are accepted is not enough in general: where a
placeholder has an expression of its own, it can leave a group open or change the flags, and
what comes behind it is read in another way than by itself. Without such placeholders, it is.
-/

namespace RequestRouting

open Pattern.Template (Reads Touch Element meet)
open Handler (AllParsed allParsed_cons Throughout throughout_nil throughout_cons patternsAll
  patternsAll_cons)

variable {E W : Type}

/-! ## Texts along a lineage -/

namespace Pattern

/-- The texts of patterns put together. -/
def together (patterns : List Pattern) : String :=
  patterns.foldr (fun p text => p.text ++ text) ""

/-- Whether the texts of patterns, put together, are read as a pattern for as much of a path as
the last one. -/
def readTogether (patterns : List Pattern) : Bool :=
  patterns.getLast?.all fun last => (parse (together patterns) last.extent).toBool

theorem toBool_iff {ε α : Type} {result : Except ε α} :
    result.toBool = true ↔ ∃ value, result = .ok value := by
  cases result <;> simp [Except.toBool]

theorem exists_error_of_toBool {ε α : Type} {result : Except ε α} (hfault : result.toBool = false) :
    ∃ fault, result = .error fault := by
  cases result with
  | error fault => exact ⟨fault, rfl⟩
  | ok value => cases hfault

theorem readTogether_of_getLast? {patterns : List Pattern} {last : Pattern}
    (hlast : patterns.getLast? = some last) :
    readTogether patterns = true ↔ ∃ q, parse (together patterns) last.extent = .ok q := by
  rw [readTogether, hlast, Option.all_some, toBool_iff]

theorem Parsed.readTogether_self {p : Pattern} (hp : p.Parsed) : readTogether [p] = true := by
  have htext : together [p] = p.text := String.append_empty
  refine (readTogether_of_getLast? rfl).mpr ⟨p, ?_⟩
  rw [htext]
  exact hp.parse_eq

/-- The texts of patterns are read together from wherever one starts. -/
def ReadThroughout (patterns : List Pattern) : Prop :=
  ∀ suffix, suffix <:+ patterns → readTogether suffix = true

theorem readThroughout_nil : ReadThroughout [] := by
  intro suffix hsuffix
  rw [List.suffix_nil.mp hsuffix]
  rfl

theorem readThroughout_cons {p : Pattern} {patterns : List Pattern} :
    ReadThroughout (p :: patterns) ↔
      readTogether (p :: patterns) = true ∧ ReadThroughout patterns := by
  simp only [ReadThroughout, List.suffix_cons_iff, forall_eq_or_imp]

theorem toList_together_cons (p : Pattern) (patterns : List Pattern) :
    (together (p :: patterns)).toList = p.text.toList ++ (together patterns).toList :=
  String.toList_append

/-- Texts that are accepted by themselves open properly together. -/
theorem opensProperly_together {patterns : List Pattern} (hparsed : ∀ p ∈ patterns, p.Parsed) :
    Template.opensProperly (together patterns).toList = true := by
  induction patterns with
  | nil => rfl
  | cons p patterns ih =>
      obtain ⟨hp, hlater⟩ := List.forall_mem_cons.mp hparsed
      rw [toList_together_cons]
      exact opensProperly_append hp.opensProperly (ih hlater)

/-- What untyped patterns read to together is untyped. -/
theorem untyped_of_reads_together {patterns : List Pattern}
    (hparsed : ∀ p ∈ patterns, p.Parsed ∧ p.isUntyped = true) {elements : List Element}
    (hreads : Reads [] (together patterns).toList elements) :
    elements.all Element.isUntyped = true := by
  induction patterns generalizing elements with
  | nil =>
      cases hreads
      rfl
  | cons p patterns ih =>
      obtain ⟨⟨hp, huntyped⟩, hlater⟩ := List.forall_mem_cons.mp hparsed
      rw [toList_together_cons] at hreads
      obtain ⟨later, hreadsLater, rfl⟩ := (hp.reads hreads).of_append hreads
      rw [Template.all_isUntyped_meet, Bool.and_eq_true]
      exact ⟨huntyped, ih hlater hreadsLater⟩

end Pattern

/-! ## Mounted handlers -/

namespace Handler

/-- For each handler of a chain and of the chains inside it, the patterns from the outermost
group around it down to its own. -/
def lineages : List (Handler E W) → List (List Pattern)
  | [] => []
  | h :: rest =>
      [h.predicate.pattern] :: (lineages h.inside).map (h.predicate.pattern :: ·) ++
        lineages rest
termination_by handlers => sizeOf handlers
decreasing_by
  · exact sizeOf_inside_lt h rest
  · exact sizeOf_rest_lt h rest

/-- The second chain is the first one, as it was declared, under the text `outer`: the pattern of
each handler has the texts of its lineage, each once, and the extent that it was declared with;
its condition and all else about the handler are what they were. -/
inductive Mounted : String → List (Handler E W) → List (Handler E W) → Prop
  | nil (outer : String) : Mounted outer [] []
  | cons {outer : String} {h : Handler E W} {q : Pattern} {inner rest later : List (Handler E W)}
      (htext : q.text = outer ++ h.predicate.pattern.text)
      (hextent : q.extent = h.predicate.pattern.extent)
      (hinside : Mounted (outer ++ h.predicate.pattern.text) h.inside inner)
      (hrest : Mounted outer rest later) :
      Mounted outer (h :: rest) (h.remade ⟨q, h.predicate.condition⟩ inner :: later)

variable {outer : String} {p : Pattern} {handlers chain mounted : List (Handler E W)}

theorem Mounted.eq_nil (hmounted : Mounted outer handlers chain) (hempty : handlers = []) :
    chain = [] := by
  subst hempty
  cases hmounted
  rfl

/-- Mounting puts a text in front. -/
theorem Mounted.mountAll (hp : p.Parsed) (hmounted : Mounted outer handlers chain)
    (hparsed : AllParsed chain) (hchain : Handler.mountAll p chain = .ok mounted) :
    Mounted (p.text ++ outer) handlers mounted := by
  induction hmounted generalizing mounted with
  | nil outer =>
      cases hchain
      exact .nil _
  | @cons outer h q inner rest later htext hextent hinside hrest ihInside ihRest =>
      obtain ⟨hq, hinner, hlater⟩ := allParsed_cons.mp hparsed
      obtain ⟨_, hfirst, others, hothers, rfl⟩ := mountAll_cons_eq_ok_iff.mp hchain
      obtain ⟨joined, hjoined, deeper, hdeeper, rfl⟩ := mount_eq_ok_iff.mp hfirst
      rw [inside_remade hinside.eq_nil] at hinner hdeeper
      rw [predicate_remade] at hq hjoined
      obtain ⟨_, hjoinedText, hjoinedExtent⟩ := hp.of_join hq hjoined
      rw [predicate_remade, remade_remade]
      refine .cons ?_ (hjoinedExtent.trans hextent) ?_ (ihRest hlater hothers)
      · rw [hjoinedText, htext, String.append_assoc]
      · rw [String.append_assoc]
        exact ihInside hinner hdeeper

/-- What has been put together is what was declared, each pattern behind the groups around it. -/
theorem AllParsed.mounted_of_assembleAll (hparsed : AllParsed handlers)
    (hchain : assembleAll handlers = .ok chain) :
    Mounted "" handlers chain ∧ AllParsed chain := by
  induction handlers using chainInduction generalizing chain with
  | nil =>
      cases hchain
      exact ⟨.nil _, nofun⟩
  | cons h rest ihInside ihRest =>
      obtain ⟨hpattern, hinside, hrest⟩ := allParsed_cons.mp hparsed
      obtain ⟨first, hfirst, later, hlater, rfl⟩ := assembleAll_cons_eq_ok_iff.mp hchain
      obtain ⟨inner, hinner, mounted, hmountAll, rfl⟩ := assemble_eq_ok_iff.mp hfirst
      obtain ⟨hinnerMounted, hinnerParsed⟩ := ihInside hinside hinner
      obtain ⟨hlaterMounted, hlaterParsed⟩ := ihRest hrest hlater
      have htext : h.predicate.pattern.text = "" ++ h.predicate.pattern.text :=
        String.empty_append.symm
      have hmounted := hinnerMounted.mountAll hpattern hinnerParsed hmountAll
      rw [String.append_empty] at hmounted
      constructor
      · exact .cons htext rfl (htext ▸ hmounted) hlaterMounted
      · rw [allParsed_cons, predicate_remade, inside_remade hmounted.eq_nil]
        exact ⟨hpattern, hinnerParsed.of_mountAll hpattern hmountAll, hlaterParsed⟩

/-! ## Lineages -/

theorem lineages_cons (h : Handler E W) (rest : List (Handler E W)) :
    lineages (h :: rest) =
      [h.predicate.pattern] :: (lineages h.inside).map (h.predicate.pattern :: ·) ++
        lineages rest := by
  rw [lineages]

theorem ne_nil_of_mem_lineages {lineage : List Pattern} (hmem : lineage ∈ lineages handlers) :
    lineage ≠ [] := by
  induction handlers using chainInduction with
  | nil => simp [lineages] at hmem
  | cons h rest ihInside ihRest =>
      rw [lineages_cons, List.mem_append, List.mem_cons, List.mem_map] at hmem
      rcases hmem with (rfl | ⟨_, _, rfl⟩) | hmem
      · exact List.cons_ne_nil _ _
      · exact List.cons_ne_nil _ _
      · exact ihRest hmem

theorem mem_patternsAll_of_mem_lineages {lineage : List Pattern}
    (hmem : lineage ∈ lineages handlers) : ∀ p ∈ lineage, p ∈ patternsAll handlers := by
  induction handlers using chainInduction generalizing lineage with
  | nil => simp [lineages] at hmem
  | cons h rest ihInside ihRest =>
      rw [lineages_cons, List.mem_append, List.mem_cons, List.mem_map] at hmem
      intro p hp
      rw [patternsAll_cons, List.mem_append, List.mem_cons]
      rcases hmem with (rfl | ⟨inner, hinner, rfl⟩) | hmem
      · exact .inl (.inl (List.mem_singleton.mp hp))
      · exact .inl ((List.mem_cons.mp hp).imp_right (ihInside hinner p))
      · exact .inr (ihRest hmem p hp)

/-- In mounted chains, patterns have the texts and the extents that their lineages say. -/
theorem Mounted.forall₂_lineages (hmounted : Mounted outer handlers chain) :
    List.Forall₂
      (fun q lineage => q.text = outer ++ Pattern.together lineage ∧
        ∃ last, lineage.getLast? = some last ∧ q.extent = last.extent)
      (patternsAll chain) (lineages handlers) := by
  induction hmounted with
  | nil outer =>
      rw [lineages]
      exact .nil
  | @cons outer h q inner rest later htext hextent hinside hrest ihInside ihRest =>
      rw [patternsAll_cons, predicate_remade, inside_remade hinside.eq_nil, lineages_cons]
      have hown : q.text = outer ++ Pattern.together [h.predicate.pattern] := by
        rw [htext]
        exact congrArg (outer ++ ·) String.append_empty.symm
      refine List.rel_append (.cons ⟨hown, _, rfl, hextent⟩ ?_) ihRest
      refine List.forall₂_map_right_iff.mpr (ihInside.imp ?_)
      rintro q lineage ⟨hq, last, hlast, hqExtent⟩
      refine ⟨?_, last, ?_, hqExtent⟩
      · rw [hq, String.append_assoc]
        rfl
      · rw [List.getLast?_cons, hlast]
        rfl

/-- What is in a group can be mounted under the pattern of the group iff the texts of its
lineages can be read behind the text of the group. -/
theorem Mounted.exists_mountAll_iff (hmounted : Mounted "" handlers chain)
    (hparsed : AllParsed chain) (hp : p.Parsed) :
    (∃ mounted, Handler.mountAll p chain = .ok mounted) ↔
      ∀ lineage ∈ lineages handlers, Pattern.readTogether (p :: lineage) = true := by
  rw [Handler.exists_mountAll_iff]
  have hlineages := hmounted.forall₂_lineages
  unfold AllParsed at hparsed
  generalize patternsAll chain = patterns at hparsed hlineages
  generalize lineages handlers = listed at hlineages
  induction hlineages with
  | nil => simp
  | @cons q lineage patterns listed hhere _ ih =>
      obtain ⟨htext, last, hlast, hextent⟩ := hhere
      obtain ⟨hq, hlater⟩ := List.forall_mem_cons.mp hparsed
      have hfirst : (∃ joined, Pattern.join p q = .ok joined) ↔
          Pattern.readTogether (p :: lineage) = true := by
        have hlast : (p :: lineage).getLast? = some last := by rw [List.getLast?_cons, hlast]; rfl
        rw [Pattern.readTogether_of_getLast? hlast, hp.join_eq hq, htext, hextent,
          String.empty_append]
        rfl
      rw [List.forall_mem_cons, List.forall_mem_cons, hfirst]
      exact and_congr_right' (ih hlater)

/-- A chain of handlers can be put together iff all texts along its lineages are accepted. -/
theorem AllParsed.exists_assembleAll_iff (hparsed : AllParsed handlers) :
    (∃ chain, assembleAll handlers = .ok chain) ↔
      ∀ lineage ∈ lineages handlers, Pattern.ReadThroughout lineage := by
  induction handlers using chainInduction with
  | nil => simp [lineages, assembleAll]
  | cons h rest ihInside ihRest =>
      obtain ⟨hpattern, hinside, hrest⟩ := allParsed_cons.mp hparsed
      have hown := And.intro hpattern.readTogether_self Pattern.readThroughout_nil
      rw [lineages_cons, List.forall_mem_append, List.forall_mem_cons, List.forall_mem_map,
        ← ihRest hrest]
      simp only [Pattern.readThroughout_cons]
      constructor
      · rintro ⟨_, hchain⟩
        obtain ⟨_, hfirst, later, hlater, rfl⟩ := assembleAll_cons_eq_ok_iff.mp hchain
        obtain ⟨inner, hinner, mounted, hmountAll, rfl⟩ := assemble_eq_ok_iff.mp hfirst
        obtain ⟨hmounted, hall⟩ := hinside.mounted_of_assembleAll hinner
        have hbehind := (hmounted.exists_mountAll_iff hall hpattern).mp ⟨mounted, hmountAll⟩
        have halone := (ihInside hinside).mp ⟨inner, hinner⟩
        exact ⟨⟨hown, fun lineage hmem => ⟨hbehind lineage hmem, halone lineage hmem⟩⟩,
          ⟨later, hlater⟩⟩
      · rintro ⟨⟨_, hlineages⟩, ⟨later, hlater⟩⟩
        obtain ⟨inner, hinner⟩ :=
          (ihInside hinside).mpr fun lineage hmem => (hlineages lineage hmem).2
        obtain ⟨hmounted, hall⟩ := hinside.mounted_of_assembleAll hinner
        obtain ⟨mounted, hmountAll⟩ := (hmounted.exists_mountAll_iff hall hpattern).mpr
          fun lineage hmem => (hlineages lineage hmem).1
        have hfirst := assemble_eq_ok_iff.mpr ⟨inner, hinner, mounted, hmountAll, rfl⟩
        exact ⟨_, assembleAll_cons_eq_ok_iff.mpr ⟨_, hfirst, later, hlater, rfl⟩⟩

/-! ## Groups that leave readings alone -/

/-- What is inside the handler is read by itself if it is read behind its pattern: no placeholder
of the pattern has an expression of its own, and if the pattern ends in a star for a segment,
none inside has. -/
def GroupsPlainly (h : Handler E W) : Prop :=
  h.inside ≠ [] →
    h.predicate.pattern.isUntyped = true ∧
      (h.predicate.pattern.elements.getLast? = some .segment →
        ∀ r ∈ patternsAll h.inside, r.isUntyped = true)

/-- In such groups, the texts of a lineage are read from wherever one starts if they are read from
the outermost group on. -/
theorem AllParsed.readThroughout_of_readTogether (hparsed : AllParsed handlers)
    (hplainly : Throughout (fun h _ => h.GroupsPlainly) handlers) :
    ∀ lineage ∈ lineages handlers,
      Pattern.readTogether lineage = true → Pattern.ReadThroughout lineage := by
  induction handlers using chainInduction with
  | nil => simp [lineages]
  | cons h rest ihInside ihRest =>
      obtain ⟨hpattern, hinside, hrest⟩ := allParsed_cons.mp hparsed
      obtain ⟨hhere, hplainInside, hplainRest⟩ := throughout_cons.mp hplainly
      rw [lineages_cons, List.forall_mem_append, List.forall_mem_cons, List.forall_mem_map]
      simp only [Pattern.readThroughout_cons]
      refine ⟨⟨fun hown => ⟨hown, Pattern.readThroughout_nil⟩, fun lineage hmem hbehind => ?_⟩,
        ihRest hrest hplainRest⟩
      refine ⟨hbehind, ihInside hinside hplainInside lineage hmem ?_⟩
      have hmembers := mem_patternsAll_of_mem_lineages hmem
      have hnonempty : h.inside ≠ [] := by
        intro hempty
        rw [hempty, lineages] at hmem
        cases hmem
      obtain ⟨huntyped, hstar⟩ := hhere hnonempty
      obtain ⟨last, hlast⟩ :=
        Option.isSome_iff_exists.mp (List.getLast?_isSome.mpr (ne_nil_of_mem_lineages hmem))
      have hlastBehind : (h.predicate.pattern :: lineage).getLast? = some last := by
        rw [List.getLast?_cons, hlast]
        rfl
      obtain ⟨joined, hjoined⟩ := (Pattern.readTogether_of_getLast? hlastBehind).mp hbehind
      refine (Pattern.readTogether_of_getLast? hlast).mpr ?_
      refine hpattern.exists_parse_of_append huntyped
        (Pattern.opensProperly_together fun p hp => hinside p (hmembers p hp)) ?_ hjoined
      rintro later hreads ⟨hends, _⟩
      exact Pattern.untyped_of_reads_together
        (fun p hp => ⟨hinside p (hmembers p hp), hstar hends p (hmembers p hp)⟩) hreads

end Handler

/-! ## Dispatchers -/

namespace Dispatcher

variable {handlers : List (Handler E W)}

/-- A tree of handlers whose patterns have been read from text makes a dispatcher iff, along the
lineage of each handler, the texts are accepted together from wherever one starts; if no group has
a placeholder with an expression of its own in its pattern, nor inside it in case that ends in a
star for a segment, iff they are accepted together from the outermost group on. The dispatcher
then has the handlers as they were declared, the pattern of each behind the texts of the groups
around it. -/
theorem prefixes_compose (hparsed : AllParsed handlers) :
    ((∃ d, assembled handlers = .ok d) ↔
      ∀ lineage ∈ Handler.lineages handlers, Pattern.ReadThroughout lineage) ∧
    (Throughout (fun h _ => h.GroupsPlainly) handlers →
      ((∃ d, assembled handlers = .ok d) ↔
        ∀ lineage ∈ Handler.lineages handlers, Pattern.readTogether lineage = true)) ∧
    ∀ d, assembled handlers = .ok d →
      ∃ chain, d.root = .group Predicate.any chain ∧ Handler.Mounted "" handlers chain := by
  have hroot {chain : List (Handler E W)} (hchain : Handler.assembleAll handlers = .ok chain) :
      ofHandlers chain = .ok ⟨.group Predicate.any chain⟩ := by
    have hall := (hparsed.mounted_of_assembleAll hchain).2
    exact ofHandlers_eq_ok_iff.mpr ⟨chain, hall.mountAll_any, rfl⟩
  have hassembled : (∃ d, assembled handlers = .ok d) ↔
      ∀ lineage ∈ Handler.lineages handlers, Pattern.ReadThroughout lineage := by
    rw [← hparsed.exists_assembleAll_iff]
    constructor
    · rintro ⟨d, hd⟩
      obtain ⟨chain, hchain, _⟩ := bind_eq_ok_iff.mp hd
      exact ⟨chain, hchain⟩
    · rintro ⟨chain, hchain⟩
      exact ⟨_, bind_eq_ok_iff.mpr ⟨chain, hchain, hroot hchain⟩⟩
  refine ⟨hassembled, fun hplainly => hassembled.trans ?_, fun d hd => ?_⟩
  · refine forall₂_congr fun lineage hmem => ⟨fun hall => hall lineage List.suffix_rfl, ?_⟩
    exact hparsed.readThroughout_of_readTogether hplainly lineage hmem
  · obtain ⟨chain, hchain, hd⟩ := bind_eq_ok_iff.mp hd
    rw [hroot hchain] at hd
    cases hd
    exact ⟨chain, rfl, (hparsed.mounted_of_assembleAll hchain).1⟩

/-- A route in two groups. -/
def twoGroups (outer middle own : Pattern) : List (Handler TextEvent Unit) :=
  [.group ⟨outer, none⟩ [.group ⟨middle, none⟩ [.on ⟨own, none⟩ Plan.unchanged]]]

theorem lineages_twoGroups (outer middle own : Pattern) :
    Handler.lineages (twoGroups outer middle own) =
      [[outer], [outer, middle], [outer, middle, own]] := by
  simp [twoGroups, Handler.lineages, Handler.inside, Handler.predicate]

theorem allParsed_twoGroups {outer middle own : Pattern} (houter : outer.Parsed)
    (hmiddle : middle.Parsed) (hown : own.Parsed) : AllParsed (twoGroups outer middle own) :=
  allParsed_cons.mpr ⟨houter, allParsed_cons.mpr ⟨hmiddle,
    allParsed_cons.mpr ⟨hown, nofun, nofun⟩, nofun⟩, nofun⟩

/-- Literals can be put together if they can be from the outermost group on. -/
theorem prefixes_compose_of_literals :
    AllParsed (twoGroups (.literal ⟨"/api", .leading⟩) (.literal ⟨"/v1", .leading⟩)
        (.literal ⟨"/users", .whole⟩)) ∧
      ∃ d chain, assembled (twoGroups (.literal ⟨"/api", .leading⟩) (.literal ⟨"/v1", .leading⟩)
          (.literal ⟨"/users", .whole⟩)) = .ok d ∧ d.root = .group Predicate.any chain ∧
        Handler.Mounted "" (twoGroups (.literal ⟨"/api", .leading⟩) (.literal ⟨"/v1", .leading⟩)
          (.literal ⟨"/users", .whole⟩)) chain := by
  have hparsed := allParsed_twoGroups ⟨"/api", .leading, rfl⟩ ⟨"/v1", .leading, rfl⟩
    ⟨"/users", .whole, rfl⟩
  obtain ⟨_, hplain, hmounted⟩ := prefixes_compose hparsed
  have hplainly : Throughout (fun h _ => h.GroupsPlainly)
      (twoGroups (.literal ⟨"/api", .leading⟩) (.literal ⟨"/v1", .leading⟩)
        (.literal ⟨"/users", .whole⟩)) := by
    refine throughout_cons.mpr ⟨fun _ => by decide +kernel, throughout_cons.mpr
      ⟨fun _ => by decide +kernel, throughout_cons.mpr ⟨fun hnonempty => ?_, throughout_nil,
        throughout_nil⟩, throughout_nil⟩, throughout_nil⟩
    exact absurd rfl hnonempty
  obtain ⟨d, hd⟩ := (hplain hplainly).mpr (by rw [lineages_twoGroups]; decide +kernel)
  obtain ⟨chain, hroot, hchain⟩ := hmounted d hd
  exact ⟨hparsed, d, chain, hd, hroot, hchain⟩

/-- The placeholder of the first group closes its group and turns on the flag for comments, so
that behind it the second group has a comment where by itself it has another group of the name
that the route uses. All texts from the outermost group on are accepted, yet the second group
is refused, when the route is put into it. -/
theorem outermost_texts_not_enough :
    ∃ outer middle own,
      Pattern.parse "/\x7ba:y)(?x)(z\x7d" .leading = .ok outer ∧
      Pattern.parse "/\x7bb:w#(?P<q>x)\n\x7d" .leading = .ok middle ∧
      Pattern.parse "/\x7bc:(?P<q>x)\x7d" .whole = .ok own ∧
      (∀ lineage ∈ Handler.lineages (twoGroups outer middle own),
        Pattern.readTogether lineage = true) ∧
      ¬∃ d, assembled (twoGroups outer middle own) = .ok d := by
  have houter : (Pattern.parse "/\x7ba:y)(?x)(z\x7d" .leading).toBool = true := by decide +kernel
  have hmiddle : (Pattern.parse "/\x7bb:w#(?P<q>x)\n\x7d" .leading).toBool = true := by
    decide +kernel
  have hown : (Pattern.parse "/\x7bc:(?P<q>x)\x7d" .whole).toBool = true := by decide +kernel
  obtain ⟨outer, houter⟩ := Pattern.toBool_iff.mp houter
  obtain ⟨middle, hmiddle⟩ := Pattern.toBool_iff.mp hmiddle
  obtain ⟨own, hown⟩ := Pattern.toBool_iff.mp hown
  have hparsed := allParsed_twoGroups ⟨_, _, houter⟩ ⟨_, _, hmiddle⟩ ⟨_, _, hown⟩
  have htogether (patterns : List Pattern) :
      Pattern.readTogether patterns = patterns.getLast?.all fun last =>
        (Pattern.parse (Pattern.together patterns) last.extent).toBool := rfl
  refine ⟨outer, middle, own, houter, hmiddle, hown, ?_, ?_⟩
  · rw [lineages_twoGroups]
    simp only [List.forall_mem_cons, htogether, Pattern.together, List.getLast?, List.getLast,
      List.foldr, Option.all_some, Pattern.text_of_parse houter, Pattern.text_of_parse hmiddle,
      Pattern.text_of_parse hown, Pattern.extent_of_parse houter, Pattern.extent_of_parse hmiddle,
      Pattern.extent_of_parse hown]
    refine ⟨?_, ?_, ?_, nofun⟩ <;> decide +kernel
  · rintro ⟨d, hd⟩
    obtain ⟨chain, hchain, _⟩ := bind_eq_ok_iff.mp hd
    have hall := hparsed.exists_assembleAll_iff.mp ⟨chain, hchain⟩
    rw [lineages_twoGroups] at hall
    have hinner := hall [outer, middle, own] (by simp) [middle, own] (List.suffix_cons _ _)
    simp only [htogether, Pattern.together, List.getLast?, List.getLast,
      List.foldr, Option.all_some, Pattern.text_of_parse hmiddle,
      Pattern.text_of_parse hown, Pattern.extent_of_parse hown] at hinner
    revert hinner
    decide +kernel

end Dispatcher

end RequestRouting
