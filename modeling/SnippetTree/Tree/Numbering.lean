import SnippetTree.Tree.Basic

/-!
# Numbering

The nodes of a tree are numbered in the order in which they are made. Making trees is therefore
done in a monad whose state is nothing but the next free number. A number can also be taken before
its node is made, as it is for the root of a program.
-/

namespace SnippetTree

/-- Something made while numbers are given out: it takes the next free number and gives the result
with the number that is the next free one after it. -/
def Numbering (α : Type) : Type := Int → α × Int

namespace Numbering

variable {α β : Type}

/-- What is made, and the next free number after it, if `next` is free before. -/
def run (x : Numbering α) (next : Int) : α × Int := x next

instance : Monad Numbering where
  pure a := fun next => (a, next)
  bind x f := fun next => match x next with
    | (a, next) => f a next

@[simp] theorem run_pure (a : α) (next : Int) : (pure a : Numbering α).run next = (a, next) := rfl

@[simp] theorem run_bind (x : Numbering α) (f : α → Numbering β) (next : Int) :
    (x >>= f).run next = (f (x.run next).1).run (x.run next).2 := rfl

@[simp] theorem run_map (f : α → β) (x : Numbering α) (next : Int) :
    (f <$> x).run next = (f (x.run next).1, (x.run next).2) := rfl

instance : LawfulMonad Numbering :=
  LawfulMonad.mk' Numbering (fun _ => rfl) (fun _ _ => rfl) (fun _ _ _ => rfl)

/-- Takes the next free number. -/
def fresh : Numbering Int :=
  fun next => (next, next + 1)

/-- Makes a node with the next free number. -/
def create (kind : Kind) (lexeme : Lexeme) (category : Category) (children : List Tree)
    (synthetic : Bool) : Numbering Tree := do
  return .mk (← fresh) kind lexeme category children synthetic

@[simp] theorem run_fresh (next : Int) : fresh.run next = (next, next + 1) := rfl

@[simp] theorem run_create (kind : Kind) (lexeme : Lexeme) (category : Category)
    (children : List Tree) (synthetic : Bool) (next : Int) :
    (create kind lexeme category children synthetic).run next =
      (.mk next kind lexeme category children synthetic, next + 1) := rfl

/-- Makes a leaf that is a name. -/
def identifier (name : Lexeme) : Numbering Tree :=
  create .identifier name .identifier [] false

/-- Makes a leaf that is a value. -/
def constant (text : Lexeme) : Numbering Tree :=
  create .constant text .constant [] false

/-- Makes a leaf that is a keyword. -/
def keyword (word : Lexeme) : Numbering Tree :=
  create .keyword word .keyword [] false

/-- Makes the empty name that stands where an operand is missing. -/
def placeholder : Numbering Tree :=
  identifier ""

/-- Makes a node that holds others together. -/
def group (kind : Kind) (label : Lexeme) (children : List Tree) : Numbering Tree :=
  create kind label .keyword children true

/-- Makes a group if there is something to put into it. -/
def groupIfAny (kind : Kind) (label : Lexeme) (children : List Tree) : Numbering (List Tree) :=
  if children.isEmpty then return [] else return [← group kind label children]

end Numbering

end SnippetTree
