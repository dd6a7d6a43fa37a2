import SerialLock.Proofs.Results
import SerialLock.Yaml.Node.Read

/-!
# The tokens of a node

Which tokens spell a node is said without a reader: a collection is spelled by its start, what is in
it, and its end, and an entry by its key and its value.  What the reader makes of tokens is spelled by
those that it has passed, whatever comes behind them (`sound`).  So each node in a document has tokens
of its own, and all tokens of the text are accounted for (`spelledBy_of_ofText`).
-/

set_option autoImplicit false

namespace SerialLock.Yaml

/-- An anchor and a tag, in either order, each of which may be missing. -/
inductive AreProperties : List Token → Prop where
  | nil : AreProperties []
  | anchor (name : List Char) : AreProperties [.anchor name]
  | tag (handle : List Char) (suffix : Bytes) : AreProperties [.tag handle suffix]
  | anchorTag (name handle : List Char) (suffix : Bytes) :
      AreProperties [.anchor name, .tag handle suffix]
  | tagAnchor (handle : List Char) (suffix : Bytes) (name : List Char) :
      AreProperties [.tag handle suffix, .anchor name]

/-- The comma before all entries of a flow collection but the first. -/
def comma (first : Bool) : List Token :=
  if first then [] else [.flowEntry]

mutual

/-- The tokens spell the node. -/
inductive Node.SpelledBy : Node → List Token → Prop where
  | alias (mark : Mark) (number : Nat) (name : List Char) :
      Node.SpelledBy (.alias mark number) [.alias name]
  | scalar (mark : Mark) (anchor : Option Nat) (tag : Option Bytes) (style : Style)
      (text : List Char) {properties : List Token} (hproperties : AreProperties properties) :
      Node.SpelledBy (.scalar mark anchor tag style text) (properties ++ [.scalar style text])
  /-- What is said about a node may be all there is. -/
  | properties (mark : Mark) (anchor : Option Nat) (tag : Option Bytes) {properties : List Token}
      (hproperties : AreProperties properties) (hne : properties ≠ []) :
      Node.SpelledBy (.scalar mark anchor tag .plain []) properties
  | blockSequence (mark : Mark) (anchor : Option Nat) {items : List Node}
      {properties tokens : List Token} (hproperties : AreProperties properties)
      (hitems : ItemsBy items tokens) :
      Node.SpelledBy (.sequence mark anchor items)
        (properties ++ .blockSequenceStart :: (tokens ++ [.blockEnd]))
  /-- The items of a sequence need no indentation where it is a part of an entry. -/
  | items (mark : Mark) (anchor : Option Nat) {items : List Node}
      {properties tokens : List Token} (hproperties : AreProperties properties)
      (hitems : ItemsBy items tokens) (hne : items ≠ []) :
      Node.SpelledBy (.sequence mark anchor items) (properties ++ tokens)
  | blockMapping (mark : Mark) (anchor : Option Nat) {entries : List (Node × Node)}
      {properties tokens : List Token} (hproperties : AreProperties properties)
      (hentries : EntriesBy entries tokens) :
      Node.SpelledBy (.mapping mark anchor entries)
        (properties ++ .blockMappingStart :: (tokens ++ [.blockEnd]))
  | flowSequence (mark : Mark) (anchor : Option Nat) {items : List Node}
      {properties tokens : List Token} (hproperties : AreProperties properties)
      (hitems : FlowItemsBy true items tokens) :
      Node.SpelledBy (.sequence mark anchor items)
        (properties ++ .flowSequenceStart :: (tokens ++ [.flowSequenceEnd]))
  | flowMapping (mark : Mark) (anchor : Option Nat) {entries : List (Node × Node)}
      {properties tokens : List Token} (hproperties : AreProperties properties)
      (hentries : FlowEntriesBy true entries tokens) :
      Node.SpelledBy (.mapping mark anchor entries)
        (properties ++ .flowMappingStart :: (tokens ++ [.flowMappingEnd]))

/-- The tokens spell the node, or there are none and it is blank. -/
inductive PartBy : Node → List Token → Prop where
  | missing (mark : Mark) : PartBy (.blank mark) []
  | given {node : Node} {tokens : List Token} (hnode : Node.SpelledBy node tokens) :
      PartBy node tokens

/-- The tokens spell the items of a block sequence. -/
inductive ItemsBy : List Node → List Token → Prop where
  | nil : ItemsBy [] []
  | cons {item : Node} {items : List Node} {tokens rest : List Token} (hitem : PartBy item tokens)
      (hitems : ItemsBy items rest) : ItemsBy (item :: items) (.blockEntry :: (tokens ++ rest))

/-- The tokens spell a value, with the colon in front of it unless it is missing. -/
inductive ValueBy : Node → List Token → Prop where
  | missing (mark : Mark) : ValueBy (.blank mark) []
  | given {value : Node} {tokens : List Token} (hvalue : PartBy value tokens) :
      ValueBy value (.value :: tokens)

/-- The tokens spell the entries of a block mapping. -/
inductive EntriesBy : List (Node × Node) → List Token → Prop where
  | nil : EntriesBy [] []
  | cons {key value : Node} {entries : List (Node × Node)} {keyTokens valueTokens rest : List Token}
      (hkey : PartBy key keyTokens) (hvalue : ValueBy value valueTokens)
      (hentries : EntriesBy entries rest) :
      EntriesBy ((key, value) :: entries) (.key :: (keyTokens ++ (valueTokens ++ rest)))

/-- The tokens spell an item of a flow sequence, which may be a single pair of key and value. -/
inductive FlowItemBy : Node → List Token → Prop where
  | node {item : Node} {tokens : List Token} (hitem : Node.SpelledBy item tokens) :
      FlowItemBy item tokens
  | pair (mark : Mark) {key value : Node} {keyTokens valueTokens : List Token}
      (hkey : Node.SpelledBy key keyTokens) (hvalue : ValueBy value valueTokens) :
      FlowItemBy (.mapping mark none [(key, value)]) (.key :: (keyTokens ++ valueTokens))
  /-- The token that stands in the place of a missing key does not count. -/
  | keyless (mark keyMark : Mark) {value : Node} (passed : Token) {valueTokens : List Token}
      (hvalue : ValueBy value valueTokens) :
      FlowItemBy (.mapping mark none [(.blank keyMark, value)]) (.key :: passed :: valueTokens)

/-- The tokens spell the items of a flow sequence.  A comma may follow the last. -/
inductive FlowItemsBy : Bool → List Node → List Token → Prop where
  | nil (first : Bool) : FlowItemsBy first [] []
  | comma : FlowItemsBy false [] [.flowEntry]
  | cons {first : Bool} {item : Node} {items : List Node} {tokens rest : List Token}
      (hitem : FlowItemBy item tokens) (hitems : FlowItemsBy false items rest) :
      FlowItemsBy first (item :: items) (comma first ++ (tokens ++ rest))

/-- The tokens spell an entry of a flow mapping. -/
inductive FlowEntryBy : Node × Node → List Token → Prop where
  | key (mark : Mark) {key : Node} {tokens : List Token} (hkey : Node.SpelledBy key tokens) :
      FlowEntryBy (key, .blank mark) tokens
  | pair {key value : Node} {keyTokens valueTokens : List Token} (hkey : PartBy key keyTokens)
      (hvalue : ValueBy value valueTokens) :
      FlowEntryBy (key, value) (.key :: (keyTokens ++ valueTokens))

/-- The tokens spell the entries of a flow mapping.  A comma may follow the last. -/
inductive FlowEntriesBy : Bool → List (Node × Node) → List Token → Prop where
  | nil (first : Bool) : FlowEntriesBy first [] []
  | comma : FlowEntriesBy false [] [.flowEntry]
  | cons {first : Bool} {entry : Node × Node} {entries : List (Node × Node)}
      {tokens rest : List Token} (hentry : FlowEntryBy entry tokens)
      (hentries : FlowEntriesBy false entries rest) :
      FlowEntriesBy first (entry :: entries) (comma first ++ (tokens ++ rest))

end

/-- From one place to the other the reader passes these tokens. -/
def Cursor.Passes (cursor : Cursor) (tokens : List Token) (next : Cursor) : Prop :=
  cursor.lexemes.map Lexeme.token = tokens ++ next.lexemes.map Lexeme.token

namespace Cursor

variable {cursor middle next : Cursor} {token : Token} {tokens tokens' : List Token}

/-- A reader that stays passes nothing. -/
theorem Passes.refl (cursor : Cursor) : cursor.Passes [] cursor := rfl

/-- Going on passes the tokens of both ways. -/
theorem Passes.trans (h : cursor.Passes tokens middle) (h' : middle.Passes tokens' next) :
    cursor.Passes (tokens ++ tokens') next := by
  unfold Passes at h h' ⊢
  rw [h, h', List.append_assoc]

/-- Advancing passes the token that is seen. -/
theorem passes_of_peek (hpeek : cursor.peek = some token) : cursor.Passes [token] cursor.advance := by
  obtain ⟨lexemes, anchors⟩ := cursor
  cases lexemes with
  | nil => cases hpeek
  | cons lexeme rest =>
      cases hpeek
      rfl

/-- Keeping an anchor in mind passes nothing. -/
theorem passes_setAnchor (cursor : Cursor) (name : List Char) :
    cursor.Passes [] (cursor.setAnchor name).2 := rfl

end Cursor

variable {handles : Handles} {steps : Nat} {context : Context} {cursor next : Cursor}
  {properties properties' : Properties}

/-- An anchor is read if there is one. -/
theorem readAnchorProperty_sound
    (hread : readAnchorProperty properties cursor = (properties', next)) :
    (properties' = properties ∧ next = cursor ∧ ∀ name, cursor.peek ≠ some (.anchor name)) ∨
      properties'.given = true ∧ ∃ name, cursor.Passes [.anchor name] next := by
  unfold readAnchorProperty at hread
  split at hread
  · rename_i name hpeek
    cases hread
    exact .inr ⟨rfl, name, (Cursor.passes_of_peek hpeek).trans (Cursor.passes_setAnchor _ name)⟩
  · rename_i hother
    cases hread
    exact .inl ⟨rfl, rfl, hother⟩

/-- A tag is read if there is one. -/
theorem readTagProperty_sound
    (hread : readTagProperty handles properties cursor = .ok (properties', next)) :
    (properties' = properties ∧ next = cursor) ∨
      properties'.given = true ∧ ∃ handle suffix, cursor.Passes [.tag handle suffix] next := by
  unfold readTagProperty at hread
  split at hread
  · rename_i handle suffix hpeek
    split at hread
    · cases hread
      exact .inr ⟨rfl, handle, suffix, Cursor.passes_of_peek hpeek⟩
    · cases hread
  · cases hread
    exact .inl ⟨rfl, rfl⟩

/-- What is said about a node is read with the tokens that say it, if there are any. -/
theorem readProperties_sound (hread : readProperties handles cursor = .ok (properties, next)) :
    ∃ tokens, AreProperties tokens ∧ cursor.Passes tokens next ∧
      (properties.given = true → tokens ≠ []) := by
  unfold readProperties at hread
  simp only at hread
  split at hread
  · -- an anchor comes first, so that there is one
    rename_i name hpeek
    rcases hanchor : readAnchorProperty { mark := cursor.here } cursor with ⟨anchored, middle⟩
    rw [hanchor] at hread
    rcases readAnchorProperty_sound hanchor with ⟨-, -, hother⟩ | ⟨-, name', hpasses⟩
    · exact absurd hpeek (hother name)
    · rcases readTagProperty_sound hread with ⟨-, rfl⟩ | ⟨-, handle, suffix, hpasses'⟩
      · exact ⟨_, .anchor name', hpasses, fun _ => List.cons_ne_nil _ _⟩
      · exact ⟨_, .anchorTag name' handle suffix, hpasses.trans hpasses',
          fun _ => List.cons_ne_nil _ _⟩
  · obtain ⟨⟨tagged, middle⟩, htag, hanchor⟩ := bind_eq_ok_iff.mp hread
    have hanchor' := Except.ok.inj hanchor
    rcases readTagProperty_sound htag with ⟨rfl, rfl⟩ | ⟨-, handle, suffix, hpasses⟩
    · rcases readAnchorProperty_sound hanchor' with ⟨rfl, rfl, -⟩ | ⟨-, name, hpasses'⟩
      · exact ⟨_, .nil, .refl _, fun hgiven => by cases hgiven⟩
      · exact ⟨_, .anchor name, hpasses', fun _ => List.cons_ne_nil _ _⟩
    · rcases readAnchorProperty_sound hanchor' with ⟨-, rfl, -⟩ | ⟨-, name, hpasses'⟩
      · exact ⟨_, .tag handle suffix, hpasses, fun _ => List.cons_ne_nil _ _⟩
      · exact ⟨_, .tagAnchor handle suffix name, hpasses.trans hpasses',
          fun _ => List.cons_ne_nil _ _⟩

/-- What is read in so many steps is spelled by the tokens that are passed. -/
structure Sound (handles : Handles) (steps : Nat) : Prop where
  node {context : Context} {cursor next : Cursor} {node : Node}
    (hread : readNode handles steps context cursor = .ok (node, next)) :
    ∃ tokens, node.SpelledBy tokens ∧ cursor.Passes tokens next
  items {cursor next : Cursor} {items : List Node}
    (hread : readItems handles steps false cursor = .ok (items, next)) :
    ∃ tokens, ItemsBy items tokens ∧ cursor.Passes (tokens ++ [.blockEnd]) next
  partItems {cursor next : Cursor} {items : List Node}
    (hread : readItems handles steps true cursor = .ok (items, next)) :
    ∃ tokens, ItemsBy items tokens ∧ cursor.Passes tokens next ∧
      (cursor.peek = some .blockEntry → items ≠ [])
  entries {cursor next : Cursor} {entries : List (Node × Node)}
    (hread : readEntries handles steps cursor = .ok (entries, next)) :
    ∃ tokens, EntriesBy entries tokens ∧ cursor.Passes (tokens ++ [.blockEnd]) next
  flowValue {close : Token} {cursor next : Cursor} {value : Node}
    (hread : readFlowValue handles steps close cursor = .ok (value, next)) :
    ∃ tokens, ValueBy value tokens ∧ cursor.Passes tokens next
  flowItems {first : Bool} {cursor next : Cursor} {items : List Node}
    (hread : readFlowItems handles steps first cursor = .ok (items, next)) :
    ∃ tokens, FlowItemsBy first items tokens ∧ cursor.Passes (tokens ++ [.flowSequenceEnd]) next
  flowEntries {first : Bool} {cursor next : Cursor} {entries : List (Node × Node)}
    (hread : readFlowEntries handles steps first cursor = .ok (entries, next)) :
    ∃ tokens, FlowEntriesBy first entries tokens ∧
      cursor.Passes (tokens ++ [.flowMappingEnd]) next

namespace Sound

variable {node : Node} {items : List Node} {entries : List (Node × Node)}

/-- In no steps nothing is read. -/
theorem zero (handles : Handles) : Sound handles 0 where
  node hread := by cases hread
  items hread := by cases hread
  partItems hread := by cases hread
  entries hread := by cases hread
  flowValue hread := by cases hread
  flowItems hread := by cases hread
  flowEntries hread := by cases hread

/-- A node that is read is spelled by the tokens that are passed. -/
theorem readNode (h : Sound handles steps)
    (hread : Yaml.readNode handles (steps + 1) context cursor = .ok (node, next)) :
    ∃ tokens, node.SpelledBy tokens ∧ cursor.Passes tokens next := by
  unfold Yaml.readNode at hread
  split at hread
  · rename_i name hpeek
    split at hread
    · rename_i number hnumber
      cases hread
      exact ⟨_, .alias _ number name, Cursor.passes_of_peek hpeek⟩
    · cases hread
  -- the token behind the properties decides on the kind of the node
  · obtain ⟨⟨properties, middle⟩, hproperties, hkind⟩ := bind_eq_ok_iff.mp hread
    clear hread
    obtain ⟨said, hsaid, hpasses, hgiven⟩ := readProperties_sound hproperties
    simp only at hkind
    split at hkind
    · rename_i hpeek
      obtain ⟨⟨items, after⟩, hitems, hmade⟩ := bind_eq_ok_iff.mp hkind
      cases hmade
      obtain ⟨tokens, hspelled, hpasses', hne⟩ := h.partItems hitems
      exact ⟨_, .items _ _ hsaid hspelled (hne hpeek), hpasses.trans hpasses'⟩
    · rename_i style text hpeek
      cases hkind
      exact ⟨_, .scalar _ _ _ style text hsaid, hpasses.trans (Cursor.passes_of_peek hpeek)⟩
    · rename_i hpeek
      obtain ⟨⟨items, after⟩, hitems, hmade⟩ := bind_eq_ok_iff.mp hkind
      cases hmade
      obtain ⟨tokens, hspelled, hpasses'⟩ := h.flowItems hitems
      exact ⟨_, .flowSequence _ _ hsaid hspelled,
        hpasses.trans ((Cursor.passes_of_peek hpeek).trans hpasses')⟩
    · rename_i hpeek
      obtain ⟨⟨entries, after⟩, hentries, hmade⟩ := bind_eq_ok_iff.mp hkind
      cases hmade
      obtain ⟨tokens, hspelled, hpasses'⟩ := h.flowEntries hentries
      exact ⟨_, .flowMapping _ _ hsaid hspelled,
        hpasses.trans ((Cursor.passes_of_peek hpeek).trans hpasses')⟩
    · rename_i hpeek
      obtain ⟨⟨items, after⟩, hitems, hmade⟩ := bind_eq_ok_iff.mp hkind
      cases hmade
      obtain ⟨tokens, hspelled, hpasses'⟩ := h.items hitems
      exact ⟨_, .blockSequence _ _ hsaid hspelled,
        hpasses.trans ((Cursor.passes_of_peek hpeek).trans hpasses')⟩
    · rename_i hpeek
      obtain ⟨⟨items, after⟩, hitems, hmade⟩ := bind_eq_ok_iff.mp hkind
      cases hmade
      obtain ⟨tokens, hspelled, hpasses'⟩ := h.items hitems
      exact ⟨_, .blockSequence _ _ hsaid hspelled,
        hpasses.trans ((Cursor.passes_of_peek hpeek).trans hpasses')⟩
    · rename_i hpeek
      obtain ⟨⟨entries, after⟩, hentries, hmade⟩ := bind_eq_ok_iff.mp hkind
      cases hmade
      obtain ⟨tokens, hspelled, hpasses'⟩ := h.entries hentries
      exact ⟨_, .blockMapping _ _ hsaid hspelled,
        hpasses.trans ((Cursor.passes_of_peek hpeek).trans hpasses')⟩
    · rename_i hpeek
      obtain ⟨⟨entries, after⟩, hentries, hmade⟩ := bind_eq_ok_iff.mp hkind
      cases hmade
      obtain ⟨tokens, hspelled, hpasses'⟩ := h.entries hentries
      exact ⟨_, .blockMapping _ _ hsaid hspelled,
        hpasses.trans ((Cursor.passes_of_peek hpeek).trans hpasses')⟩
    · split at hkind
      · rename_i hsome
        cases hkind
        exact ⟨said, .properties _ _ _ hsaid (hgiven hsome), hpasses⟩
      · cases hkind

/-- A part of an entry is missing, or a node is read.  What follows it is the same. -/
theorem part_bind (h : Sound handles steps) {α : Type} {a : α} {ends : Bool} {mark : Mark}
    {go : Node × Cursor → Result α}
    (hread : (if ends then .ok (Node.blank mark, cursor) >>= go
      else Yaml.readNode handles steps context cursor >>= go) = .ok a) :
    ∃ node next tokens, PartBy node tokens ∧ cursor.Passes tokens next ∧ go (node, next) = .ok a := by
  split at hread
  · exact ⟨_, _, [], .missing mark, .refl cursor, hread⟩
  · obtain ⟨⟨node, next⟩, hnode, hgo⟩ := bind_eq_ok_iff.mp hread
    obtain ⟨tokens, hspelled, hpasses⟩ := h.node hnode
    exact ⟨node, next, tokens, .given hspelled, hpasses, hgo⟩

/-- The items of a sequence that ends with what follows it are spelled by the tokens that are
passed. -/
theorem readItems_true (h : Sound handles steps)
    (hread : Yaml.readItems handles (steps + 1) true cursor = .ok (items, next)) :
    ∃ tokens, ItemsBy items tokens ∧ cursor.Passes tokens next ∧
      (cursor.peek = some .blockEntry → items ≠ []) := by
  unfold Yaml.readItems at hread
  simp only at hread
  split at hread
  · rename_i hpeek
    obtain ⟨item, middle, tokens, hspelled, hpasses, hread⟩ := h.part_bind hread
    obtain ⟨⟨others, last⟩, hothers, hmade⟩ := bind_eq_ok_iff.mp hread
    cases hmade
    obtain ⟨rest, hrest, hpasses', -⟩ := h.partItems hothers
    exact ⟨_, .cons hspelled hrest,
      (Cursor.passes_of_peek hpeek).trans (hpasses.trans hpasses'), fun _ => List.cons_ne_nil _ _⟩
  · rename_i hother
    cases hread
    exact ⟨[], .nil, .refl _, fun hpeek => absurd hpeek hother⟩

/-- The items of a sequence that has an end of its own are spelled by the tokens before that end. -/
theorem readItems_false (h : Sound handles steps)
    (hread : Yaml.readItems handles (steps + 1) false cursor = .ok (items, next)) :
    ∃ tokens, ItemsBy items tokens ∧ cursor.Passes (tokens ++ [.blockEnd]) next := by
  unfold Yaml.readItems at hread
  simp only at hread
  split at hread
  · rename_i hpeek
    obtain ⟨item, middle, tokens, hspelled, hpasses, hread⟩ := h.part_bind hread
    obtain ⟨⟨others, last⟩, hothers, hmade⟩ := bind_eq_ok_iff.mp hread
    cases hmade
    obtain ⟨rest, hrest, hpasses'⟩ := h.items hothers
    have hall := (Cursor.passes_of_peek hpeek).trans (hpasses.trans hpasses')
    exact ⟨_, .cons hspelled hrest, by simpa using hall⟩
  · simp only [Bool.false_eq_true, if_false] at hread
    split at hread
    · rename_i hend
      cases hread
      exact ⟨[], .nil, Cursor.passes_of_peek (eq_of_beq hend)⟩
    · cases hread

/-- What follows a value of an entry is the same whether it is missing or not. -/
theorem value_bind (h : Sound handles steps) {α : Type} {a : α} {ends : Bool} {mark mark' : Mark}
    {go : Node × Cursor → Result α}
    (hread : (if cursor.peek == some .value then
        if ends then .ok (Node.blank mark, cursor.advance) >>= go
        else Yaml.readNode handles steps context cursor.advance >>= go
      else .ok (Node.blank mark', cursor) >>= go) = .ok a) :
    ∃ value next tokens, ValueBy value tokens ∧ cursor.Passes tokens next ∧
      go (value, next) = .ok a := by
  split at hread
  · rename_i hpeek
    obtain ⟨value, next, tokens, hspelled, hpasses, hgo⟩ := h.part_bind hread
    exact ⟨value, next, _, .given hspelled,
      (Cursor.passes_of_peek (eq_of_beq hpeek)).trans hpasses, hgo⟩
  · exact ⟨_, _, [], .missing mark', .refl cursor, hread⟩

/-- The entries of a mapping are spelled by the tokens that are passed before its end. -/
theorem readEntries (h : Sound handles steps)
    (hread : Yaml.readEntries handles (steps + 1) cursor = .ok (entries, next)) :
    ∃ tokens, EntriesBy entries tokens ∧ cursor.Passes (tokens ++ [.blockEnd]) next := by
  unfold Yaml.readEntries at hread
  simp only at hread
  split at hread
  · rename_i hpeek
    obtain ⟨key, middle, tokens, hkey, hpasses, hread⟩ := h.part_bind hread
    obtain ⟨value, middle', tokens', hvalue, hpasses', hread⟩ := h.value_bind hread
    obtain ⟨⟨others, last⟩, hothers, hmade⟩ := bind_eq_ok_iff.mp hread
    cases hmade
    obtain ⟨rest, hrest, hpasses''⟩ := h.entries hothers
    have hall := (Cursor.passes_of_peek hpeek).trans (hpasses.trans (hpasses'.trans hpasses''))
    exact ⟨_, .cons hkey hvalue hrest, by simpa using hall⟩
  · rename_i hpeek
    cases hread
    exact ⟨[], .nil, Cursor.passes_of_peek hpeek⟩
  · cases hread

/-- The value in a flow mapping, or none, is spelled by the tokens that are passed. -/
theorem readFlowValue (h : Sound handles steps) {close : Token} {value : Node}
    (hread : Yaml.readFlowValue handles (steps + 1) close cursor = .ok (value, next)) :
    ∃ tokens, ValueBy value tokens ∧ cursor.Passes tokens next := by
  unfold Yaml.readFlowValue at hread
  simp only at hread
  by_cases hpeek : cursor.peek = some .value
  · have hpasses := Cursor.passes_of_peek hpeek
    simp only [hpeek, beq_self_eq_true, if_true, Bool.true_and] at hread
    split at hread
    · obtain ⟨tokens, hspelled, hpasses'⟩ := h.node hread
      exact ⟨_, .given (.given hspelled), hpasses.trans hpasses'⟩
    · cases hread
      exact ⟨_, .given (.missing _), hpasses⟩
  · simp only [beq_eq_false_iff_ne.mpr hpeek, Bool.false_and, Bool.false_eq_true, if_false] at hread
    cases hread
    exact ⟨[], .missing _, .refl _⟩

/-- A comma is passed in front of every part of a flow collection but the first. -/
theorem passComma_sound {first : Bool} (hcomma : passComma first cursor = .ok next) :
    cursor.Passes (comma first) next := by
  unfold passComma at hcomma
  unfold comma
  split at hcomma
  · rename_i hfirst
    cases hcomma
    rw [if_pos hfirst]
    exact .refl _
  · rename_i hfirst
    rw [if_neg hfirst]
    split at hcomma
    · rename_i hpeek
      cases hcomma
      exact Cursor.passes_of_peek (eq_of_beq hpeek)
    · cases hcomma

/-- What ends a key in a flow collection is a token. -/
theorem exists_of_endsFlowKey {close : Token} {token? : Option Token}
    (hends : endsFlowKey close token? = true) : ∃ token, token? = some token := by
  cases token? with
  | none => simp [endsFlowKey] at hends
  | some token => exact ⟨token, rfl⟩

/-- The items of a flow sequence are spelled by the tokens that are passed. -/
theorem readFlowItems (h : Sound handles steps) {first : Bool}
    (hread : Yaml.readFlowItems handles (steps + 1) first cursor = .ok (items, next)) :
    ∃ tokens, FlowItemsBy first items tokens ∧
      cursor.Passes (tokens ++ [.flowSequenceEnd]) next := by
  unfold Yaml.readFlowItems at hread
  simp only at hread
  split at hread
  · rename_i hpeek
    cases hread
    exact ⟨[], .nil first, Cursor.passes_of_peek (eq_of_beq hpeek)⟩
  obtain ⟨middle, hcomma, hread⟩ := bind_eq_ok_iff.mp hread
  have hpasses := passComma_sound hcomma
  split at hread
  · rename_i hpeek
    cases hread
    have hall := hpasses.trans (Cursor.passes_of_peek (eq_of_beq hpeek))
    cases first with
    | true => exact ⟨[], .nil true, hall⟩
    | false => exact ⟨_, .comma, hall⟩
  -- an item, of whatever form, is followed by the others
  have hothers {item : Node} {others : List Node} {after : Cursor} {tokens : List Token}
      (hitem : FlowItemBy item tokens) (hitself : middle.Passes tokens after)
      (hrest : Yaml.readFlowItems handles steps false after = .ok (others, next)) :
      ∃ tokens, FlowItemsBy first (item :: others) tokens ∧
        cursor.Passes (tokens ++ [.flowSequenceEnd]) next := by
    obtain ⟨rest, hspelled, hbehind⟩ := h.flowItems hrest
    have hall := hpasses.trans (hitself.trans hbehind)
    exact ⟨_, .cons hitem hspelled, by simpa using hall⟩
  split at hread
  · rename_i hkey
    have hmark := Cursor.passes_of_peek (eq_of_beq hkey)
    split at hread
    · rename_i hends
      obtain ⟨passed, hpeek⟩ := exists_of_endsFlowKey hends
      rw [ok_bind] at hread
      obtain ⟨⟨value, after⟩, hvalue, hread⟩ := bind_eq_ok_iff.mp hread
      rw [ok_bind] at hread
      obtain ⟨⟨others, last⟩, hrest, hmade⟩ := bind_eq_ok_iff.mp hread
      cases hmade
      obtain ⟨tokens, hspelled, hpasses'⟩ := h.flowValue hvalue
      exact hothers (.keyless _ _ passed hspelled)
        (hmark.trans ((Cursor.passes_of_peek hpeek).trans hpasses')) hrest
    · obtain ⟨⟨key, middle'⟩, hnode, hread⟩ := bind_eq_ok_iff.mp hread
      obtain ⟨⟨value, after⟩, hvalue, hread⟩ := bind_eq_ok_iff.mp hread
      rw [ok_bind] at hread
      obtain ⟨⟨others, last⟩, hrest, hmade⟩ := bind_eq_ok_iff.mp hread
      cases hmade
      obtain ⟨tokens, hspelled, hpasses'⟩ := h.node hnode
      obtain ⟨tokens', hspelled', hpasses''⟩ := h.flowValue hvalue
      exact hothers (.pair _ hspelled hspelled') (hmark.trans (hpasses'.trans hpasses'')) hrest
  · obtain ⟨⟨item, after⟩, hnode, hread⟩ := bind_eq_ok_iff.mp hread
    obtain ⟨⟨others, last⟩, hrest, hmade⟩ := bind_eq_ok_iff.mp hread
    cases hmade
    obtain ⟨tokens, hspelled, hpasses'⟩ := h.node hnode
    exact hothers (.node hspelled) hpasses' hrest

/-- The entries of a flow mapping are spelled by the tokens that are passed. -/
theorem readFlowEntries (h : Sound handles steps) {first : Bool}
    (hread : Yaml.readFlowEntries handles (steps + 1) first cursor = .ok (entries, next)) :
    ∃ tokens, FlowEntriesBy first entries tokens ∧
      cursor.Passes (tokens ++ [.flowMappingEnd]) next := by
  unfold Yaml.readFlowEntries at hread
  simp only at hread
  split at hread
  · rename_i hpeek
    cases hread
    exact ⟨[], .nil first, Cursor.passes_of_peek (eq_of_beq hpeek)⟩
  obtain ⟨middle, hcomma, hread⟩ := bind_eq_ok_iff.mp hread
  have hpasses := passComma_sound hcomma
  split at hread
  · rename_i hpeek
    cases hread
    have hall := hpasses.trans (Cursor.passes_of_peek (eq_of_beq hpeek))
    cases first with
    | true => exact ⟨[], .nil true, hall⟩
    | false => exact ⟨_, .comma, hall⟩
  -- an entry, of either form, is followed by the others
  have hothers {entry : Node × Node} {others : List (Node × Node)} {after : Cursor}
      {tokens : List Token} (hentry : FlowEntryBy entry tokens)
      (hitself : middle.Passes tokens after)
      (hrest : Yaml.readFlowEntries handles steps false after = .ok (others, next)) :
      ∃ tokens, FlowEntriesBy first (entry :: others) tokens ∧
        cursor.Passes (tokens ++ [.flowMappingEnd]) next := by
    obtain ⟨rest, hspelled, hbehind⟩ := h.flowEntries hrest
    have hall := hpasses.trans (hitself.trans hbehind)
    exact ⟨_, .cons hentry hspelled, by simpa using hall⟩
  split at hread
  · rename_i hkey
    obtain ⟨key, middle', tokens, hspelled, hpasses', hread⟩ := h.part_bind hread
    obtain ⟨⟨value, after⟩, hvalue, hread⟩ := bind_eq_ok_iff.mp hread
    rw [ok_bind] at hread
    obtain ⟨⟨others, last⟩, hrest, hmade⟩ := bind_eq_ok_iff.mp hread
    cases hmade
    obtain ⟨tokens', hspelled', hpasses''⟩ := h.flowValue hvalue
    exact hothers (.pair hspelled hspelled')
      ((Cursor.passes_of_peek (eq_of_beq hkey)).trans (hpasses'.trans hpasses'')) hrest
  · obtain ⟨⟨key, after⟩, hnode, hread⟩ := bind_eq_ok_iff.mp hread
    rw [ok_bind] at hread
    obtain ⟨⟨others, last⟩, hrest, hmade⟩ := bind_eq_ok_iff.mp hread
    cases hmade
    obtain ⟨tokens, hspelled, hpasses'⟩ := h.node hnode
    exact hothers (.key _ hspelled) hpasses' hrest

end Sound

/-- Whatever is read is spelled by the tokens that are passed. -/
theorem sound (handles : Handles) (steps : Nat) : Sound handles steps := by
  induction steps with
  | zero => exact .zero handles
  | succ steps ih =>
      exact ⟨ih.readNode, ih.readItems_false, ih.readItems_true, ih.readEntries, ih.readFlowValue,
        ih.readFlowItems, ih.readFlowEntries⟩

/-! ## Documents -/

/-- Is the token a directive? -/
def Token.isDirective : Token → Bool
  | .version | .tagHandle .. => true
  | _ => false

/-- What may stand in front of the root: nothing, or directives and the start of a document. -/
inductive Opens : List Token → Prop where
  | nothing : Opens []
  | start {directives : List Token} (hdirectives : ∀ token ∈ directives, token.isDirective = true) :
      Opens (directives ++ [.documentStart])

/-- The tokens spell the document: its root, and nothing else but the start and ends of documents. -/
inductive Document.SpelledBy : Document → List Token → Prop where
  | missing : Document.SpelledBy ⟨none⟩ []
  | blank (mark : Mark) {opening ends : List Token} (hopening : Opens opening) (hne : opening ≠ [])
      (hends : ∀ token ∈ ends, token = .documentEnd) :
      Document.SpelledBy ⟨some (.blank mark)⟩ (opening ++ ends)
  | root {node : Node} {opening tokens ends : List Token} (hopening : Opens opening)
      (hroot : node.SpelledBy tokens) (hends : ∀ token ∈ ends, token = .documentEnd) :
      Document.SpelledBy ⟨some node⟩ (opening ++ (tokens ++ ends))

variable {document : Document} {found rest : List Lexeme}

/-- Directives are passed up to the first token that is none. -/
theorem readDirectives_sound {version : Bool} {handles' : Handles}
    (hread : readDirectives version handles found = .ok (handles', rest)) :
    ∃ directives, (∀ token ∈ directives, token.isDirective = true) ∧
      found.map Lexeme.token = directives ++ rest.map Lexeme.token := by
  induction found generalizing version handles with
  | nil =>
      cases hread
      exact ⟨[], by simp, rfl⟩
  | cons lexeme found ih =>
      have hlater {version : Bool} {handles : Handles} (hdirective : lexeme.token.isDirective = true)
          (hread : readDirectives version handles found = .ok (handles', rest)) :
          ∃ directives, (∀ token ∈ directives, token.isDirective = true) ∧
            (lexeme :: found).map Lexeme.token = directives ++ rest.map Lexeme.token := by
        obtain ⟨directives, hdirectives, hfound⟩ := ih hread
        refine ⟨lexeme.token :: directives, ?_, ?_⟩
        · exact List.forall_mem_cons.mpr ⟨hdirective, hdirectives⟩
        · rw [List.map_cons, hfound, List.cons_append]
      unfold readDirectives at hread
      split at hread
      · rename_i hversion
        split at hread
        · cases hread
        · exact hlater (by rw [hversion]; rfl) hread
      · rename_i handle meaning htag
        split at hread
        · cases hread
        · exact hlater (by rw [htag]; rfl) hread
      · cases hread
        exact ⟨[], by simp, rfl⟩

/-- Behind its opening a document is spelled by the tokens that are left. -/
theorem readRoot_sound {opening : List Token} (hopening : Opens opening)
    (hread : readRoot handles found = .ok document) :
    document.SpelledBy (opening ++ found.map Lexeme.token) := by
  unfold readRoot at hread
  obtain ⟨⟨node, cursor⟩, hnode, hrest⟩ := bind_eq_ok_iff.mp hread
  obtain ⟨tokens, hspelled, hpasses⟩ := (sound handles _).node hnode
  simp only at hrest
  split at hrest
  · rename_i hends
    cases hrest
    have hfound : found.map Lexeme.token = tokens ++ cursor.lexemes.map Lexeme.token := hpasses
    rw [hfound]
    refine .root hopening hspelled ?_
    simpa using hends
  · split at hrest
    · cases hrest
    · cases hrest

/-- A document that is made of tokens is spelled by them. -/
theorem ofLexemes_sound (hread : Document.ofLexemes found = .ok document) :
    document.SpelledBy (found.map Lexeme.token) := by
  unfold Document.ofLexemes at hread
  obtain ⟨⟨handles, rest⟩, hdirectives, hread⟩ := bind_eq_ok_iff.mp hread
  obtain ⟨directives, hall, hfound⟩ := readDirectives_sound hdirectives
  simp only at hread
  split at hread
  · split at hread
    · rename_i hempty
      cases hread
      rw [List.isEmpty_iff.mp hempty]
      exact .missing
    · cases hread
  · rename_i first content
    rw [hfound, List.map_cons]
    split at hread
    · rename_i hstart
      rw [eq_of_beq hstart, ← List.singleton_append, ← List.append_assoc]
      split at hread
      · rename_i hends
        cases hread
        exact .blank _ (.start hall) (by simp) (by simpa using hends)
      · split at hread
        · cases hread
        · exact readRoot_sound (.start hall) hread
    · split at hread
      · rename_i hnone
        simp only [Bool.and_eq_true, beq_iff_eq] at hnone
        have hlength := congrArg List.length hfound
        rw [List.length_append, List.length_map, List.length_map, hnone.2] at hlength
        obtain rfl : directives = [] := by
          rw [← List.length_eq_zero_iff]
          omega
        exact readRoot_sound .nothing hread
      · cases hread

/-- A text that holds a document is spelled out in tokens by it. -/
theorem spelledBy_of_ofText {text : List Char} (hdocument : Document.ofText text = .ok document) :
    ∃ found, lexemes text = .ok found ∧ document.SpelledBy (found.map Lexeme.token) := by
  obtain ⟨found, hfound, hread⟩ := bind_eq_ok_iff.mp hdocument
  exact ⟨found, hfound, ofLexemes_sound hread⟩

end SerialLock.Yaml
