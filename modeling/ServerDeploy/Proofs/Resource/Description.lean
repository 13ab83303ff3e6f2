import ServerDeploy.Proofs.Resource.Building
import ServerDeploy.Proofs.Resource.Reading

/-! Descriptions of resources. A tree of resources that is written down, in any spelling and order of its
options, is read as it was. -/

namespace ServerDeploy

namespace PropertyValue

/-- A value as it is written: a text as it is, a literal behind the mark. -/
def document : PropertyValue → Document
  | .text s => .text s
  | .literal raw => .text ("!!" ++ raw)

/-- A text that starts with the mark would be taken for a literal. -/
def Unmarked : PropertyValue → Prop
  | .text s => ¬literalMark <+: s.toList
  | .literal _ => True

instance : DecidablePred Unmarked
  | .text s => inferInstanceAs (Decidable (¬literalMark <+: s.toList))
  | .literal _ => .isTrue trivial

theorem ofDocument_document {v : PropertyValue} (h : v.Unmarked) : ofDocument v.document = .ok v := by
  cases v with
  | text s =>
    have hmark : literalMark.isPrefixOf s.toList = false :=
      Bool.eq_false_iff.2 fun hmark => h (List.isPrefixOf_iff_prefix.1 hmark)
    exact congrArg Except.ok (by rw [ofText, hmark, if_neg Bool.false_ne_true])
  | literal raw =>
    have hmarked : ("!!" ++ raw).toList = literalMark ++ raw.toList := String.toList_append
    have hmark : literalMark.isPrefixOf ("!!" ++ raw).toList = true :=
      List.isPrefixOf_iff_prefix.2 (hmarked ▸ List.prefix_append _ _)
    refine congrArg Except.ok ?_
    rw [ofText, if_pos hmark, hmarked]
    exact congrArg literal String.ofList_toList

end PropertyValue

/-- A hook as it is written: its commands and whether they are one batch. -/
inductive Hook.Describes : Option Hook → Document → Prop where
  | absent : Describes none .null
  | given {hook : Hook} {entries : Entries}
      (h : entries.Perm [(.text "commands", .list (hook.commands.map .text)),
        (.text "batch", .scalar (.bool hook.batch))]) : Describes (some hook) (.map entries)

namespace Resource

variable {n : Nat} {entries : Entries} {r : Resource} {rs : List Resource} {ds : List Document}

theorem commandTexts_text (commands : List String) :
    commandTexts (commands.map .text) = .ok commands := by
  induction commands with
  | nil => rfl
  | cons command rest ih =>
    have hone : named (.text command) = .ok command := rfl
    rw [List.map_cons, commandTexts, hone, ih]
    rfl

theorem readHook_described {hook : Option Hook} {d : Document} (h : Hook.Describes hook d) :
    readHook d = .ok hook := by
  cases h with
  | absent => rfl
  | @given hook entries hperm =>
    have hdistinct : entries.Pairwise fun e f => e.1 ≠ f.1 :=
      List.Pairwise.perm (by simp) hperm.symm Ne.symm
    have hcommands := Entries.get?_of_mem hdistinct (hperm.mem_iff.2 List.mem_cons_self)
    have hbatch := Entries.get?_of_mem hdistinct (hperm.mem_iff.2 (.tail _ List.mem_cons_self))
    obtain ⟨commands, batch⟩ := hook
    unfold readHook
    simp only [hcommands, hbatch, Option.getD_some]
    cases commands with
    | nil => rfl
    | cons command rest =>
      show (commandTexts ((command :: rest).map .text)).map _ = _
      rw [commandTexts_text]
      rfl

def writtenProperties (r : Resource) : Entries :=
  r.properties.map fun p => (.text p.1, p.2.document)

theorem readProperties_written {properties : List (String × PropertyValue)}
    (h : ∀ p ∈ properties, p.2.Unmarked) (own : Option String) :
    readProperties own (properties.map fun p => (.text p.1, p.2.document)) = .ok properties := by
  induction properties with
  | nil => rfl
  | cons p rest ih =>
    have hname : named (.scalar (.text p.1)) = .ok p.1 := rfl
    have hone : readProperty own (.text p.1) p.2.document = .ok p := by
      rw [readProperty, hname]
      simp only [bind, Except.bind, PropertyValue.ofDocument_document (h p List.mem_cons_self)]
      rfl
    rw [List.map_cons, readProperties, hone, ih fun q hq => h q (.tail _ hq)]
    rfl

/-- An option is given with a value, or left out where that value is blank. -/
def Has (name : String) (d : Document) (blank : Prop) (entries : Entries) : Prop :=
  Gives name d entries ∨ blank ∧ Omits name entries

theorem Has.value {name : String} {d : Document} {blank : Prop} (h : Has name d blank entries)
    (hoptions : Options entries) (hname : name ∈ optionNames) :
    (option? name entries).getD .null = d ∨ blank ∧ (option? name entries).getD .null = .null := by
  rcases h with hgiven | ⟨hblank, homitted⟩
  · exact .inl (by rw [hoptions.option? hname hgiven]; rfl)
  · exact .inr ⟨hblank, by rw [homitted.option?]; rfl⟩

/-- The options of a resource, and the documents of its children. -/
structure Node (r : Resource) (entries : Entries) (ds : List Document) : Prop where
  options : Options entries
  address : Has "address" (r.address.elim .null .text) (r.address = none) entries
  properties : Has "properties" (.map r.writtenProperties) (r.properties = []) entries
  enable : Has "enable-resource" (.scalar (.bool r.enable)) (r.enable = false) entries
  addIfAbsent : Has "add-if-absent" (.scalar (.bool r.addIfAbsent)) (r.addIfAbsent = false) entries
  beforeAdd : ∃ d, Hook.Describes r.beforeAdd d ∧ Has "before-add" d (r.beforeAdd = none) entries
  afterAdd : ∃ d, Hook.Describes r.afterAdd d ∧ Has "after-add" d (r.afterAdd = none) entries
  children : Has "resources" (.list ds) (ds = []) entries

mutual

/-- A document describes a resource with all that is below it. -/
inductive Describes : Resource → Document → Prop where
  | node {r : Resource} {entries : Entries} {ds : List Document} (h : Node r entries ds)
      (hchildren : DescribesAll r.children ds) : Describes r (.map entries)

inductive DescribesAll : List Resource → List Document → Prop where
  | nil : DescribesAll [] []
  | cons {r : Resource} {d : Document} {rs : List Resource} {ds : List Document}
      (h : Describes r d) (hrest : DescribesAll rs ds) : DescribesAll (r :: rs) (d :: ds)

end

/-- A resource that is told from others by its description: an empty address counts as none, and a
text with the mark as a literal. -/
structure Writable (r : Resource) : Prop where
  address : r.address ≠ some ""
  unmarked : ∀ p ∈ r.properties, p.2.Unmarked

theorem switch_described {name : String} {b : Bool}
    (h : Has name (.scalar (.bool b)) (b = false) entries) (hoptions : Options entries)
    (hname : name ∈ optionNames) : switch name entries = b := by
  unfold switch
  rcases h.value hoptions hname with hvalue | ⟨rfl, hvalue⟩ <;> rw [hvalue] <;> rfl

theorem readHookOption_described {name : String} {hook : Option Hook}
    (h : ∃ d, Hook.Describes hook d ∧ Has name d (hook = none) entries) (hoptions : Options entries)
    (hname : name ∈ optionNames) : readHookOption name entries = .ok hook := by
  obtain ⟨d, hd, h⟩ := h
  unfold readHookOption
  rcases h.value hoptions hname with hvalue | ⟨rfl, hvalue⟩
  · rw [hvalue]
    exact readHook_described hd
  · rw [hvalue]
    rfl

theorem Node.reads (h : Node r entries ds) (hr : r.Writable) : Reads entries r ds where
  known e he := by
    obtain ⟨name, hname, hunder⟩ := h.options.known e he
    exact hunder.known hname
  heading := by
    have haddress := h.address.value h.options (by decide)
    have hproperties := h.properties.value h.options (by decide)
    rw [option?_of_word (by decide)] at haddress hproperties
    refine ⟨r.address, r.writtenProperties, ?_, ?_, ?_, readProperties_written hr.unmarked _⟩
    · unfold readAddress
      rcases haddress with hvalue | ⟨hnone, hvalue⟩
      · rw [hvalue]
        cases r.address <;> rfl
      · rw [hvalue, hnone]
        rfl
    · have hne := hr.address
      cases haddress : r.address with
      | none => rfl
      | some s =>
        have hs : s ≠ "" := fun hs => hne (by rw [haddress, hs])
        simp [addressOrNone, hs]
    · unfold readPropertyOption
      rcases hproperties with hvalue | ⟨hnone, hvalue⟩
      · rw [hvalue]
        cases r.writtenProperties <;> rfl
      · rw [hvalue, writtenProperties, hnone]
        rfl
  children own := by
    have hchildren := h.children.value h.options (by decide)
    rw [option?_of_word (by decide)] at hchildren
    rcases hchildren with hvalue | ⟨rfl, hvalue⟩
    · exact readChildrenOption_list hvalue own
    · unfold readChildrenOption
      rw [hvalue]
      rfl
  enable := switch_described h.enable h.options (by decide)
  addIfAbsent := switch_described h.addIfAbsent h.options (by decide)
  beforeAdd := readHookOption_described h.beforeAdd h.options (by decide)
  afterAdd := readHookOption_described h.afterAdd h.options (by decide)

mutual

theorem read_described : ∀ (r : Resource) {d : Document} {n : Nat}, Describes r d →
    (∀ node ∈ r.nodes, node.Writable) → d.depth ≤ n → read n d = .ok r
  | .mk own properties enable addIfAbsent children beforeAdd afterAdd, d, n, h, hr, hn => by
    cases h with
    | @node _ entries ds h hchildren =>
      have hpos := (Document.map entries).depth_pos
      obtain ⟨n, rfl⟩ : ∃ k, n = k + 1 := ⟨n - 1, by omega⟩
      rw [nodes] at hr
      have hreads := h.reads (hr _ List.mem_cons_self)
      have hbelow := readList_described children hchildren (fun node hnode => hr node (.tail _ hnode))
        fun d hd => Nat.lt_succ_iff.1 (Nat.lt_of_lt_of_le (depth_children (hreads.children none) hd) hn)
      rw [read_map hreads, hbelow]
      rfl

theorem readList_described : ∀ (rs : List Resource) {ds : List Document} {n : Nat},
    DescribesAll rs ds → (∀ node ∈ nodesOfAll rs, node.Writable) →
      (∀ d ∈ ds, d.depth ≤ n) → readList n ds = .ok rs
  | [], ds, n, h, hr, hn => by
    cases h
    rw [readList]
  | r :: rs, ds, n, h, hr, hn => by
    cases h with
    | cons h hrest =>
      rw [nodesOfAll] at hr
      rw [readList, read_described r h (fun node hnode => hr node (List.mem_append_left _ hnode))
        (hn _ List.mem_cons_self), readList_described rs hrest
          (fun node hnode => hr node (List.mem_append_right _ hnode)) fun d hd => hn d (.tail _ hd)]
      rfl

end

/-- A tree that is written down is read as it was. An option that is added somewhere in it, under a name
that is none of its spellings, is complained about, unless it is the name of an option after all when its
low lines are taken for hyphens; then it is passed over. -/
theorem parse_described {rs : List Resource} {ds : List Document} {d : Document}
    (h : DescribesAll rs ds) (hwritable : ∀ node ∈ nodesOfAll rs, node.Writable) (hd : Holds ds d) :
    parse d = .ok rs ∧
      ∀ k v d', ExtendedWithin (.text k, v) d d' →
        (∀ name ∈ optionNames, ¬Under name (.text k)) →
        parse d' = if hyphenated k ∈ optionNames then .ok rs
          else .error (.configuration (.unknownOptions [hyphenated k])) := by
  have hlist : parse (.list ds) = .ok rs :=
    readList_described rs h hwritable fun d hd =>
      Nat.le_succ_of_le (Document.depth_le_of_mem hd)
  have hparse : parse d = .ok rs := by rw [hd.parse, hlist]
  refine ⟨hparse, fun k v d' hextended hnone => ?_⟩
  split
  · next hk => exact parse_extended hextended (.unread hk hnone) hparse
  · next hk => exact parse_extended hextended (.unknown hk) hparse

/-- A logger below its subsystem, which has a typed value and a command before it. -/
def loggerTree : Resource :=
  .mk (some "subsystem=logging") [("level", .text "INFO"), ("size", .literal "20")] true false
    [.mk (some "logger=a") [] false true [] none none] (some ⟨["/:resume"], true⟩) none

def loggerOptions : Entries :=
  [(.text "add_if_absent", .scalar (.bool true)), (.text "address", .text "logger=a")]

def subsystemDocument (logger : Entries) : Document :=
  .map [(.text "resources", .list [.map logger]),
    (.text "address", .text "subsystem=logging"), (.text "enable_resource", .scalar (.bool true)),
    (.text "before-add", .map [(.text "batch", .scalar (.bool true)),
      (.text "commands", .list [.text "/:resume"])]),
    (.text "properties", .map [(.text "level", .text "INFO"), (.text "size", .text "!!20")])]

/-- An option that mixes the spellings is lost in the logger, another one is complained about. -/
theorem parse_described_logger :
    parse (.list [subsystemDocument loggerOptions]) = .ok [loggerTree] ∧
      parse (.list [subsystemDocument
        ((.text "add_if-absent", .scalar (.bool true)) :: loggerOptions)]) = .ok [loggerTree] ∧
      parse (.list [subsystemDocument ((.text "en_abled", .scalar (.bool true)) :: loggerOptions)]) =
        .error (.configuration (.unknownOptions ["en-abled"])) := by
  have hlogger : Describes (.mk (some "logger=a") [] false true [] none none) (.map loggerOptions) :=
    .node {
      options := ⟨by decide, by decide⟩
      address := .inl ⟨_, .tail _ (.head _), .inl rfl, rfl⟩
      properties := .inr ⟨rfl, by decide⟩
      enable := .inr ⟨rfl, by decide⟩
      addIfAbsent := .inl ⟨_, .head _, .inr rfl, rfl⟩
      beforeAdd := ⟨_, .absent, .inr ⟨rfl, by decide⟩⟩
      afterAdd := ⟨_, .absent, .inr ⟨rfl, by decide⟩⟩
      children := .inr ⟨rfl, by decide⟩ } .nil
  have htree : Describes loggerTree (subsystemDocument loggerOptions) :=
    .node {
      options := ⟨by decide, by decide⟩
      address := .inl ⟨_, .tail _ (.head _), .inl rfl, rfl⟩
      properties := .inl ⟨_, .tail _ (.tail _ (.tail _ (.tail _ (.head _)))), .inl rfl, rfl⟩
      enable := .inl ⟨_, .tail _ (.tail _ (.head _)), .inr rfl, rfl⟩
      addIfAbsent := .inr ⟨rfl, by decide⟩
      beforeAdd := ⟨_, .given (.swap _ _ _),
        .inl ⟨_, .tail _ (.tail _ (.tail _ (.head _))), .inl rfl, rfl⟩⟩
      afterAdd := ⟨_, .absent, .inr ⟨rfl, by decide⟩⟩
      children := .inl ⟨_, .head _, .inl rfl, rfl⟩ } (.cons hlogger .nil)
  have hwritable : ∀ node ∈ nodesOfAll [loggerTree], node.Writable := by
    intro node hnode
    simp only [loggerTree, nodesOfAll, nodes, List.append_nil, List.mem_cons, List.not_mem_nil,
      or_false] at hnode
    rcases hnode with rfl | rfl
    · exact ⟨by decide, by decide⟩
    · exact ⟨by decide, by decide⟩
  have hall := parse_described (.cons htree .nil) hwritable .list
  have added (k : String) : ExtendedWithin (.text k, .scalar (.bool true))
      (.list [subsystemDocument loggerOptions])
      (.list [subsystemDocument ((.text k, .scalar (.bool true)) :: loggerOptions)]) :=
    .list [] [] (.child [] _ [] [] rfl (.here [] loggerOptions))
  refine ⟨hall.1, ?_, ?_⟩
  · have hmixed := hall.2 "add_if-absent" _ _ (added _) (by decide)
    rwa [if_pos (by decide)] at hmixed
  · have hunknown := hall.2 "en_abled" _ _ (added _) (by decide)
    rwa [if_neg (by decide)] at hunknown

end Resource

end ServerDeploy
