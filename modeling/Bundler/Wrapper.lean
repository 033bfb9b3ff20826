import Bundler.Digest
import Bundler.Setting

/-! The text around the body of a module. A wrapped module is one declaration of its binding; the
value, when called, runs the body with its own `module` and `exports`. -/

namespace Bundler.Wrapper

/-- The text without a first line that starts with `#!`; its line feed stays. -/
def withoutHashbang : List Char → List Char
  | '#' :: '!' :: rest => rest.dropWhile (· != '\n')
  | text => text

def stripHashbang (source : String) : String := String.ofList (withoutHashbang source.toList)

/-- What stands before the body. A memoized module publishes its `module` before the body runs, so
a module that is required while it loads shows what it has exported so far. -/
def opening (id : ContentId) : Instantiation → String
  | .memoized =>
    "const " ++ id.binding ++ " = (function () \x7b\n" ++
    "let module;\n" ++
    "return function () \x7b\n" ++
    "if (module) return module.exports;\n" ++
    "module = \x7b exports: \x7b\x7d \x7d;\n" ++
    "(function (module, exports) \x7b\n"
  | .reexecute =>
    "const " ++ id.binding ++ " = (function () \x7b\n" ++
    "const module = \x7b exports: \x7b\x7d \x7d;\n" ++
    "(function (module, exports) \x7b\n"

def closing : Instantiation → String
  | .memoized =>
    "\n\x7d)(module, module.exports);\n" ++
    "return module.exports;\n" ++
    "\x7d;\n" ++
    "\x7d)();"
  | .reexecute =>
    "\n\x7d)(module, module.exports);\n" ++
    "return module.exports;\n" ++
    "\x7d);"

/-- A module as a declaration of its binding. The body stands on lines of its own, so that a
comment at its end closes nothing. -/
def wrap (id : ContentId) (source : String) (mode : Instantiation) : String :=
  opening id mode ++ stripHashbang source ++ closing mode

end Bundler.Wrapper
