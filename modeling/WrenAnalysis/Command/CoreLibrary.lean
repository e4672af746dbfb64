/-
# The core library

The classes that every program of the language has, as a module without bodies.
Signatures of calls into the library are shown from it.
-/

import WrenAnalysis.Syntax.Module

namespace WrenAnalysis
namespace CoreLibrary

/-- The identity the library is registered under. -/
def identity : String := "<core>"

/-- A class of the library: its name, its superclass, and its methods without
their bodies. -/
structure Entry where
  name : String
  superclass : Option String := none
  methods : List String

/-- The classes of the library, in alphabetical order. -/
def entries : List Entry :=
  [ { name := "Class"
      methods :=
        ["name", "supertype"] },
    { name := "Fiber"
      methods :=
        ["static abort(message)", "static current", "construct new(function)", "static suspend()",
         "static yield()", "static yield(value)", "call()", "call(value)", "error", "isDone",
         "try()", "transfer()", "transfer(value)", "transferError(error)"] },
    { name := "Fn"
      methods :=
        ["construct new(function)", "arity", "call(args)"] },
    { name := "List"
      superclass := some "Sequence"
      methods :=
        ["static filled(size, element)", "construct new()", "add(item)", "clear()", "count",
         "insert(index, item)", "removeAt(index)"] },
    { name := "Map"
      superclass := some "Sequence"
      methods :=
        ["construct new()", "clear()", "containsKey(key)", "count", "keys", "remove(key)",
         "values"] },
    { name := "Num"
      methods :=
        ["static fromString(value)", "static pi", "static largest", "static smallest", "abs",
         "acos", "asin", "atan", "atan(x)", "ceil", "cos", "floor", "isInfinity", "isInteger",
         "isNan", "log", "pow(power)", "round", "sin", "sqrt", "tan"] },
    { name := "Object"
      methods :=
        ["static same(obj1, obj2)"] },
    { name := "Sequence"
      methods :=
        ["all(predicate)", "any(predicate)", "contains(element)", "count", "count(predicate)",
         "each(function)", "isEmpty", "join(separator)", "join()", "map(transformation)",
         "reduce(function)", "reduce(seed, function)", "skip(count)", "take(count)", "toList",
         "where(predicate)"] },
    { name := "String"
      methods :=
        ["static fromCodePoint(codePoint)", "bytes", "codePoints", "contains(other)", "count",
         "endsWith(suffix)", "indexOf(search)", "indexOf(search, start)", "replace(old, swap)",
         "split(separator)", "startsWith(prefix)", "trim()", "trim(chars)", "trimEnd()",
         "trimEnd(chars)", "trimStart()", "trimStart(chars)"] },
    { name := "System"
      methods :=
        ["static clock", "static gc()", "static print()", "static print(object)",
         "static printAll(sequence)", "static write(object)"] } ]

/-- The class as it is written. -/
def Entry.text (e : Entry) : String :=
  "class " ++ e.name ++ (e.superclass.map (" is " ++ ·)).getD "" ++ " \x7b\n" ++
    String.join (e.methods.map fun m => "  " ++ m ++ " \x7b\x7d\n") ++ "\x7d\n"

/-- The library as it is written. -/
def text : String := "\n".intercalate (entries.map Entry.text)

end CoreLibrary
end WrenAnalysis
