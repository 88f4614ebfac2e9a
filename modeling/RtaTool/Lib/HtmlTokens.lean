import Mathlib.Data.List.Basic

/-!
# The tags of an HTML text

The part of an HTML tokenizer that tells tags and their attributes from everything else, over the
bytes of a text: what it makes of a text does not depend on the bytes above 127. It is one state and
one step a byte, so a text is the sequence of its pieces.

Two texts are alike when, read between two tags, they give the same tags and end between two tags
again. Being alike is kept by putting texts one after another, so a document whose varying parts are
texts without a `<` has the same tags whatever they are.

The text of a `script` element ends at its first end tag here, also where a `<!--` stands in it.

## Main definitions

* `HtmlTag`, `HtmlState`, `HtmlState.step`, `runHtml` -- the tokenizer
* `htmlTags` -- the tags of a document, with their attributes
* `HtmlPass`, `HtmlAlike` -- texts that stand for the same tags

## Main results

* `HtmlPass.append`, `HtmlPass.flatMap` -- alike pieces
* `htmlAlike_of_noLess` -- texts without a `<`
* `runHtml_value` -- a text without a `"` as an attribute's value
-/

namespace RtaTool

/-! ### The tokenizer -/

/-- A start or an end tag. -/
structure HtmlTag where
  closing : Bool
  name : List UInt8
  attributes : List (List UInt8 × List UInt8)
  selfClosing : Bool
  deriving DecidableEq

/-- A tag without a name. -/
def HtmlTag.start (closing : Bool) : HtmlTag :=
  { closing := closing, name := [], attributes := [], selfClosing := false }

/-- One more attribute. -/
def HtmlTag.add (tag : HtmlTag) (name value : List UInt8) : HtmlTag :=
  { tag with attributes := tag.attributes ++ [(name, value)] }

/-- Where in a comment the tokenizer is: what counts is which dashes came last. -/
inductive CommentPlace
  | start
  | startDash
  | inside
  | dash
  | ending
  | bang
  deriving DecidableEq

/-- Where in a text the tokenizer is. `raw` is the text of an element that ends at its own end tag
only. -/
inductive HtmlState
  | data
  | tagOpen
  | endTagOpen
  | tagName (tag : HtmlTag)
  | beforeName (tag : HtmlTag)
  | attributeName (tag : HtmlTag) (name : List UInt8)
  | afterName (tag : HtmlTag) (name : List UInt8)
  | beforeValue (tag : HtmlTag) (name : List UInt8)
  | value (quote : Option UInt8) (tag : HtmlTag) (name text : List UInt8)
  | afterValue (tag : HtmlTag)
  | selfClosing (tag : HtmlTag)
  | markup
  | markupDash
  | bogusComment
  | comment (place : CommentPlace)
  | raw (element : List UInt8)
  | rawLess (element : List UInt8)
  | rawEndOpen (element : List UInt8)
  | rawEndName (element name : List UInt8)
  deriving DecidableEq

namespace HtmlState

/-- Tab, line feed, form feed, carriage return and blank. -/
def isBlank (c : UInt8) : Bool := c = 9 || c = 10 || c = 12 || c = 13 || c = 32

def isAlpha (c : UInt8) : Bool := (65 ≤ c && c ≤ 90) || (97 ≤ c && c ≤ 122)

/-- An ASCII capital as its small letter. -/
def lower (c : UInt8) : UInt8 := if 65 ≤ c && c ≤ 90 then c + 32 else c

/-- The elements whose text has no tags in it: `title`, `textarea`, `style`, `xmp`, `iframe`,
`noembed`, `noframes` and `script`. -/
def rawElements : List (List UInt8) :=
  [[116, 105, 116, 108, 101], [116, 101, 120, 116, 97, 114, 101, 97], [115, 116, 121, 108, 101],
    [120, 109, 112], [105, 102, 114, 97, 109, 101], [110, 111, 101, 109, 98, 101, 100],
    [110, 111, 102, 114, 97, 109, 101, 115], [115, 99, 114, 105, 112, 116]]

/-- After the `>` of a tag. -/
def emit (tag : HtmlTag) : HtmlState × List HtmlTag :=
  (if !tag.closing && rawElements.contains tag.name then raw tag.name else data, [tag])

/-- Between two tags. -/
def dataStep (c : UInt8) : HtmlState := if c = 60 then tagOpen else data

/-- Where a name may begin. -/
def beforeNameStep (tag : HtmlTag) (c : UInt8) : HtmlState × List HtmlTag :=
  if isBlank c then (beforeName tag, [])
  else if c = 47 then (selfClosing tag, [])
  else if c = 62 then emit tag
  else (attributeName tag [lower c], [])

/-- In the text of an element that ends at its own end tag only. -/
def rawStep (element : List UInt8) (c : UInt8) : HtmlState :=
  if c = 60 then rawLess element else raw element

/-- In a comment. -/
def commentStep (place : CommentPlace) (c : UInt8) : HtmlState :=
  match place with
  | .start => if c = 45 then comment .startDash else if c = 62 then data else comment .inside
  | .startDash => if c = 45 then comment .ending else if c = 62 then data else comment .inside
  | .inside => if c = 45 then comment .dash else comment .inside
  | .dash => if c = 45 then comment .ending else comment .inside
  | .ending =>
    if c = 62 then data else if c = 33 then comment .bang
    else if c = 45 then comment .ending else comment .inside
  | .bang => if c = 45 then comment .dash else if c = 62 then data else comment .inside

/-- One byte: the next state, and the tag it ends. -/
def step (s : HtmlState) (c : UInt8) : HtmlState × List HtmlTag :=
  match s with
  | data => (dataStep c, [])
  | tagOpen =>
    if c = 33 then (markup, [])
    else if c = 47 then (endTagOpen, [])
    else if isAlpha c then (tagName { HtmlTag.start false with name := [lower c] }, [])
    else if c = 63 then (bogusComment, [])
    else (dataStep c, [])
  | endTagOpen =>
    if isAlpha c then (tagName { HtmlTag.start true with name := [lower c] }, [])
    else if c = 62 then (data, [])
    else (bogusComment, [])
  | tagName tag =>
    if isBlank c then (beforeName tag, [])
    else if c = 47 then (selfClosing tag, [])
    else if c = 62 then emit tag
    else (tagName { tag with name := tag.name ++ [lower c] }, [])
  | beforeName tag => beforeNameStep tag c
  | attributeName tag name =>
    if isBlank c then (afterName tag name, [])
    else if c = 47 then (selfClosing (tag.add name []), [])
    else if c = 62 then emit (tag.add name [])
    else if c = 61 then (beforeValue tag name, [])
    else (attributeName tag (name ++ [lower c]), [])
  | afterName tag name =>
    if isBlank c then (afterName tag name, [])
    else if c = 47 then (selfClosing (tag.add name []), [])
    else if c = 61 then (beforeValue tag name, [])
    else if c = 62 then emit (tag.add name [])
    else (attributeName (tag.add name []) [lower c], [])
  | beforeValue tag name =>
    if isBlank c then (beforeValue tag name, [])
    else if c = 34 ∨ c = 39 then (value (some c) tag name [], [])
    else if c = 62 then emit (tag.add name [])
    else (value none tag name [c], [])
  | value (some quote) tag name text =>
    if c = quote then (afterValue (tag.add name text), [])
    else (value (some quote) tag name (text ++ [c]), [])
  | value none tag name text =>
    if isBlank c then (beforeName (tag.add name text), [])
    else if c = 62 then emit (tag.add name text)
    else (value none tag name (text ++ [c]), [])
  | afterValue tag =>
    if c = 47 then (selfClosing tag, [])
    else if c = 62 then emit tag
    else beforeNameStep tag c
  | selfClosing tag =>
    if c = 62 then emit { tag with selfClosing := true } else beforeNameStep tag c
  | markup => (if c = 45 then markupDash else if c = 62 then data else bogusComment, [])
  | markupDash => (if c = 45 then comment .start else if c = 62 then data else bogusComment, [])
  | bogusComment => (if c = 62 then data else bogusComment, [])
  | comment place => (commentStep place c, [])
  | raw element => (rawStep element c, [])
  | rawLess element => (if c = 47 then rawEndOpen element else rawStep element c, [])
  | rawEndOpen element =>
    (if isAlpha c then rawEndName element [lower c] else rawStep element c, [])
  | rawEndName element name =>
    if isAlpha c then (rawEndName element (name ++ [lower c]), [])
    else if name ≠ element then (rawStep element c, [])
    else if isBlank c then (beforeName { HtmlTag.start true with name := name }, [])
    else if c = 47 then (selfClosing { HtmlTag.start true with name := name }, [])
    else if c = 62 then (data, [{ HtmlTag.start true with name := name }])
    else (rawStep element c, [])

end HtmlState

/-- A text read from a state: the state after it, and the tags that ended in it. -/
def runHtml : HtmlState → List UInt8 → HtmlState × List HtmlTag
  | s, [] => (s, [])
  | s, c :: text =>
    let next := s.step c
    let rest := runHtml next.1 text
    (rest.1, next.2 ++ rest.2)

/-- The tags of a document and their attributes, in order. -/
def htmlTags (text : List UInt8) : List HtmlTag := (runHtml .data text).2

/-! ### Pieces -/

theorem runHtml_append (s : HtmlState) (xs ys : List UInt8) :
    runHtml s (xs ++ ys) =
      ((runHtml (runHtml s xs).1 ys).1, (runHtml s xs).2 ++ (runHtml (runHtml s xs).1 ys).2) := by
  induction xs generalizing s with
  | nil => rfl
  | cons c xs ih =>
    rw [List.cons_append, runHtml, runHtml, ih]
    simp only [List.append_assoc]

variable {text : List UInt8}

/-- Without a `<` nothing begins. -/
theorem runHtml_data (h : 60 ∉ text) : runHtml .data text = (.data, []) := by
  induction text with
  | nil => rfl
  | cons c text ih =>
    obtain ⟨hc, htext⟩ := not_or.mp (List.mem_cons.not.mp h)
    have hstep : HtmlState.data.step c = (.data, []) := by
      rw [HtmlState.step, HtmlState.dataStep, if_neg (Ne.symm hc)]
    rw [runHtml, hstep, ih htext]
    rfl

theorem runHtml_raw (element : List UInt8) (h : 60 ∉ text) :
    runHtml (.raw element) text = (.raw element, []) := by
  induction text with
  | nil => rfl
  | cons c text ih =>
    obtain ⟨hc, htext⟩ := not_or.mp (List.mem_cons.not.mp h)
    have hstep : (HtmlState.raw element).step c = (.raw element, []) := by
      rw [HtmlState.step, HtmlState.rawStep, if_neg (Ne.symm hc)]
    rw [runHtml, hstep, ih htext]
    rfl

/-- **A value.** Without the quote in it a text is all of the attribute's value. -/
theorem runHtml_value (tag : HtmlTag) (name value : List UInt8) (h : 34 ∉ text) :
    runHtml (.value (some 34) tag name value) text =
      (.value (some 34) tag name (value ++ text), []) := by
  induction text generalizing value with
  | nil => rw [List.append_nil]; rfl
  | cons c text ih =>
    obtain ⟨hc, htext⟩ := not_or.mp (List.mem_cons.not.mp h)
    have hstep : (HtmlState.value (some 34) tag name value).step c =
        (.value (some 34) tag name (value ++ [c]), []) := by
      rw [HtmlState.step, if_neg (Ne.symm hc)]
    rw [runHtml, hstep, ih _ htext, List.append_assoc]
    rfl

/-! ### Alike texts -/

/-- Read from `a`, both texts give the same tags and end at `b`. -/
def HtmlPass (a : HtmlState) (s t : List UInt8) (b : HtmlState) : Prop :=
  (runHtml a s).1 = b ∧ runHtml a s = runHtml a t

instance (a b : HtmlState) (s t : List UInt8) : Decidable (HtmlPass a s t b) :=
  inferInstanceAs (Decidable (_ ∧ _))

/-- Both texts go from between two tags to between two tags, and give the same ones. -/
abbrev HtmlAlike (s t : List UInt8) : Prop := HtmlPass .data s t .data

namespace HtmlPass

variable {a b c : HtmlState} {s t s' t' : List UInt8}

theorem symm (h : HtmlPass a s t b) : HtmlPass a t s b := ⟨h.2 ▸ h.1, h.2.symm⟩

theorem trans {u : List UInt8} (h : HtmlPass a s t b) (h' : HtmlPass a t u c) : HtmlPass a s u b :=
  ⟨h.1, h.2.trans h'.2⟩

theorem of_run {tags : List HtmlTag} (h : runHtml a s = (b, tags)) : HtmlPass a s s b :=
  ⟨congrArg Prod.fst h, rfl⟩

theorem nil : HtmlPass a [] [] a := ⟨rfl, rfl⟩

/-- **Alike pieces make alike texts.** -/
theorem append (h : HtmlPass a s t b) (h' : HtmlPass b s' t' c) :
    HtmlPass a (s ++ s') (t ++ t') c := by
  have ht : (runHtml a t).1 = b := h.2 ▸ h.1
  refine ⟨?_, ?_⟩
  · rw [runHtml_append, h.1]
    exact h'.1
  · rw [runHtml_append, runHtml_append, h.1, ht, h.2, h'.2]

theorem ite {p q : Prop} [Decidable p] [Decidable q] (hpq : p ↔ q) (h : p → HtmlPass a s t b)
    (h' : ¬ p → HtmlPass a s' t' b) :
    HtmlPass a (if p then s else s') (if q then t else t') b := by
  by_cases hp : p
  · rw [if_pos hp, if_pos (hpq.mp hp)]
    exact h hp
  · rw [if_neg hp, if_neg (hpq.not.mp hp)]
    exact h' hp

theorem flatMap {α : Type*} {f g : α → List UInt8} {xs : List α}
    (h : ∀ x ∈ xs, HtmlPass a (f x) (g x) a) : HtmlPass a (xs.flatMap f) (xs.flatMap g) a := by
  induction xs with
  | nil => exact nil
  | cons x xs ih =>
    obtain ⟨hx, hxs⟩ := List.forall_mem_cons.mp h
    rw [List.flatMap_cons, List.flatMap_cons]
    exact hx.append (ih hxs)

theorem flatMap_map {α β : Type*} {f : α → List UInt8} {g : β → List UInt8} {xs : List α}
    {k : α → β} (h : ∀ x ∈ xs, HtmlPass a (f x) (g (k x)) a) :
    HtmlPass a (xs.flatMap f) ((xs.map k).flatMap g) a := by
  rw [List.flatMap_map]
  exact flatMap h

theorem raw (element : List UInt8) (hs : 60 ∉ s) (ht : 60 ∉ t) :
    HtmlPass (.raw element) s t (.raw element) := by
  rw [HtmlPass, runHtml_raw element hs, runHtml_raw element ht]
  exact ⟨rfl, rfl⟩

theorem value (tag : HtmlTag) (name value : List UInt8) (h : 34 ∉ s) :
    HtmlPass (.value (some 34) tag name value) s s (.value (some 34) tag name (value ++ s)) :=
  of_run (runHtml_value tag name value h)

end HtmlPass

theorem HtmlAlike.append {s t s' t' : List UInt8} (h : HtmlAlike s t) (h' : HtmlAlike s' t') :
    HtmlAlike (s ++ s') (t ++ t') := HtmlPass.append h h'

theorem HtmlAlike.tags_eq {s t : List UInt8} (h : HtmlAlike s t) : htmlTags s = htmlTags t :=
  congrArg Prod.snd h.2

theorem HtmlAlike.tags_append {s : List UInt8} (h : HtmlAlike s s) (t : List UInt8) :
    htmlTags (s ++ t) = htmlTags s ++ htmlTags t := by
  rw [htmlTags, runHtml_append, h.1]
  rfl

/-- Texts without a `<` are alike. -/
theorem htmlAlike_of_noLess {s t : List UInt8} (hs : 60 ∉ s) (ht : 60 ∉ t) : HtmlAlike s t := by
  rw [HtmlAlike, HtmlPass, runHtml_data hs, runHtml_data ht]
  exact ⟨rfl, rfl⟩

end RtaTool
