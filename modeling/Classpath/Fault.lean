import Classpath.Document.Reading

/-! # Faults — what can go wrong from files to model

    A fault is a cause.  `message` puts it into words and `help` says what
    may be done about it; nothing else in the library looks at either. -/

namespace Classpath

open Document

/-- What can go wrong with a file. -/
inductive IoFault where
  | notFound
  | alreadyExists
  | notADirectory
  | isADirectory
  /-- The contents are not text. -/
  | notText
  | other (message : String)
  deriving DecidableEq, Repr

/-- What is said of a fault with a file. -/
def IoFault.message : IoFault → String
  | notFound => "No such file or directory (os error 2)"
  | alreadyExists => "File exists (os error 17)"
  | notADirectory => "Not a directory (os error 20)"
  | isADirectory => "Is a directory (os error 21)"
  | notText => "stream did not contain valid UTF-8"
  | other message => message

/-- What can go wrong with a descriptor. -/
inductive DescriptorFault where
  | notFound (name : String)
  | unreadable (path : String) (cause : IoFault)
  | invalid (cause : ReadFault)
  deriving DecidableEq, Repr

/-- What can go wrong with a configuration. -/
inductive ConfigFault where
  | unknownFormat (name : String)
  | unreadable (cause : IoFault)
  | invalid (cause : ReadFault)
  deriving DecidableEq, Repr

/-- What can go wrong. -/
inductive Fault where
  | io (cause : IoFault)
  | malformedCoordinate (cause : MalformedCoordinate)
  | missingRoot
  | descriptor (cause : DescriptorFault)
  | config (cause : ConfigFault)
  | unknownView (name : String)
  /-- This many properties files hold a malformed list. -/
  | failedValidation (files : Nat)
  deriving DecidableEq, Repr

namespace Fault

/-- What is said of a fault, given the wording of read faults. -/
def messageWith (wording : ReadFault → String) : Fault → String
  | io cause => "I/O error: " ++ cause.message
  | malformedCoordinate cause => cause.message
  | missingRoot => "No root artifact set for the dependency model"
  | descriptor cause => "Descriptor error: " ++ match cause with
    | .notFound name =>
        "Could not find " ++ name ++ " in this directory or any parent"
    | .unreadable path cause =>
        "Failed to read " ++ path ++ ": " ++ cause.message
    | .invalid cause => wording cause
  | config cause => "Config error: " ++ match cause with
    | .unknownFormat name =>
        "Unknown output format '" ++ name ++ "' (expected json or toml)"
    | .unreadable cause => "Failed to read global config: " ++ cause.message
    | .invalid cause => "Failed to parse global config: " ++ wording cause
  | unknownView name =>
      "unknown view '" ++ name ++ "' (expected all, runtime, or deployment)"
  | failedValidation files =>
      toString files ++ " properties file(s) failed validation"

/-- What is said of a fault. -/
def message : Fault → String := messageWith ReadFault.message

/-- What may be done about a fault. -/
def help? : Fault → Option String
  | malformedCoordinate _ =>
      some "Expected group:artifact[:classifier[:type]]"
  | missingRoot =>
      some "Add an [app] section with group, artifact and version"
  | descriptor _ => some "Check your depmodel.toml for syntax errors"
  | _ => none

end Fault

end Classpath
