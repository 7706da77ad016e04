import Stencil.Context
import Stencil.Document.Basic
import Stencil.Render.Error

/-!
Scripts: what a render does, step by step. A script says nothing about where
output goes, how long it may take, or what is recorded, so that renders of one
template under different limits follow one script. Steps are produced as they
are needed.
-/

namespace Stencil

/-- A step that may stop a render. -/
inductive Event where
  /-- Looks whether the render is to stop. -/
  | poll
  | write (text : String)
  | look (path : Path) (expected : Expectation) (found : Option Found)
  /-- A formatter cancelled the caller's token. -/
  | cancel
  | declare (name : String) (body : List Item)

/-- What some steps belong to. -/
inductive Bracket where
  | item (item : Item)
  /-- The body of a partial that was entered. -/
  | reference (name : String)

/-- The steps of a render. -/
inductive Script where
  | done
  | fail (error : RenderError)
  | event (event : Event) (next : Unit → Script)
  /-- The steps inside a bracket, and those after it. -/
  | inside (bracket : Bracket) (body : Script) (next : Unit → Script)
  /-- Steps that may fail, and those after them, which are told what came of them. -/
  | attempt (body : Script) (next : Except RenderError Unit → Script)
  /-- Asks for the body of a declared partial. -/
  | declared (name : String) (next : Option (List Item) → Script)
  /-- Asks for the names of the partials being rendered, outermost first. -/
  | partials (next : List String → Script)

namespace Script

def ofEvent (event : Event) : Script :=
  .event event fun _ => .done

def write (text : String) : Script :=
  ofEvent (.write text)

/-- Goes on with another script if the first ends without an error. -/
def andThen : Script → (Unit → Script) → Script
  | done, rest => rest ()
  | fail error, _ => fail error
  | event e next, rest => event e fun _ => (next ()).andThen rest
  | inside bracket body next, rest => inside bracket body fun _ => (next ()).andThen rest
  | attempt body next, rest => attempt body fun result => (next result).andThen rest
  | declared name next, rest => declared name fun body => (next body).andThen rest
  | partials next, rest => partials fun names => (next names).andThen rest

def afterEvents (events : List Event) (script : Script) : Script :=
  events.foldr (fun e script => event e fun _ => script) script

end Script

end Stencil
