/-!
# Invocations

What the arguments of the command ask for. They are handled from left to right: the first one that
asks for help, or that cannot be accepted, decides.
-/

namespace SmallMl

/-- What the command is asked to do. -/
inductive Invocation where
  /-- Print the help text. -/
  | help
  /-- Print the tokens of a file, or of standard input if there is no path. -/
  | printTokens (path : Option String)
  /-- Refuse the argument, which is an unknown option, a second path or an empty one. -/
  | refuse (argument : String)
  deriving DecidableEq, Repr

namespace Invocation

/-- What the arguments ask for when no option may follow; `path` is the path given before them. -/
def ofPaths (path : Option String) : List String → Invocation
  | [] => printTokens path
  | argument :: rest =>
      if path.isSome || argument.isEmpty then refuse argument else ofPaths (some argument) rest

/-- What the arguments ask for; `path` is the path given before them. A hyphen by itself is a path,
and two by themselves end the options. Short options may be joined, and the first one decides. -/
def ofOptions (path : Option String) : List String → Invocation
  | [] => printTokens path
  | argument :: rest =>
      if argument = "--" then ofPaths path rest
      else if argument = "--help" then help
      else
        match argument.toList with
        | '-' :: 'h' :: _ => help
        | '-' :: _ :: _ => refuse argument
        | _ => if path.isSome || argument.isEmpty then refuse argument
            else ofOptions (some argument) rest

/-- What the arguments of the command ask for. -/
def ofArguments (arguments : List String) : Invocation :=
  ofOptions none arguments

end Invocation

end SmallMl
