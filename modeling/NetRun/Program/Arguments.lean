/-!
# Command-line words

A command takes a number of values at fixed places and any of its options, in
any order.  A long option is two dashes and a name, and its value follows an
equals sign or is the next word; a short one is a dash and a letter, and its
value may be joined to it.  Behind two dashes alone, every word is a value at
a place.  Words are looked at from left to right: the first one that cannot be
taken, or that asks for help, decides.  Only a word that is the value of an
option and stands just in front of a command's name is looked at last.
-/

namespace NetRun.Program

/-- One option of a command. -/
structure OptionForm where
  name : String
  letter : Option Char
  /-- Which values it takes; absent if it takes none. -/
  accepts : Option (String → Bool)

/-- What a command takes: its places, each with the values it accepts, and its options. -/
structure CommandForm where
  name : String
  places : List (String → Bool)
  options : List OptionForm

/-- What the words of a command say: the values at places and those of options. -/
structure Arguments where
  places : List String
  options : List (String × String)
deriving DecidableEq, Repr

/-- What stands in front of the words of a command: options, and its name. -/
structure Front where
  arguments : Arguments
  /-- The word just in front of the name can be taken. -/
  isSound : Bool
  name : String
  words : List String
deriving DecidableEq, Repr

/-- How a sequence of words is taken. -/
inductive Reading (α : Type) where
  | accepted (value : α)
  | help
  | version
  | misuse
deriving DecidableEq, Repr

/-- What one word is. -/
inductive Word where
  | place
  | separator
  | help
  | version
  | flag (option : OptionForm)
  | withValue (option : OptionForm) (accepts : String → Bool) (value : String)
  | beforeValue (option : OptionForm) (accepts : String → Bool)
  | unknown

/-- An option with the value that is joined to it, if any. -/
def joinedWord
    (option : OptionForm)
    (value : Option String) :
    Word :=
  match option.accepts, value with
  | none, none => .flag option
  | none, some _ => .unknown
  | some accepts, some value => .withValue option accepts value
  | some accepts, none => .beforeValue option accepts

/-- What a long option is. -/
def longWord
    (hasVersion : Bool)
    (options : List OptionForm)
    (body : List Char) :
    Word :=
  let name := String.ofList (body.takeWhile (· != '='))
  let value :=
    match body.dropWhile (· != '=') with
    | [] => none
    | _ :: value => some (String.ofList value)
  match options.find? fun option => option.name == name with
  | some option => joinedWord option value
  | none =>
    if value.isSome then .unknown
    else if name == "help" then .help
    else if hasVersion && name == "version" then .version
    else .unknown

/-- What a short option is. -/
def shortWord
    (hasVersion : Bool)
    (options : List OptionForm)
    (letter : Char)
    (joined : List Char) :
    Word :=
  match options.find? fun option => option.letter == some letter with
  | some option =>
    match joined with
    | [] => joinedWord option none
    | '=' :: value => joinedWord option (some (String.ofList value))
    | value => joinedWord option (some (String.ofList value))
  | none =>
    if letter == 'h' then .help
    else if hasVersion && letter == 'V' then .version
    else .unknown

/-- What a word is, while options are still looked for. -/
def classify
    (hasVersion : Bool)
    (options : List OptionForm)
    (word : String) :
    Word :=
  match word.toList with
  | ['-', '-'] => .separator
  | '-' :: '-' :: body => longWord hasVersion options body
  | '-' :: letter :: joined => shortWord hasVersion options letter joined
  | _ => .place

/-- The word starts like an option, so that it is no value of one. -/
def startsLikeOption
    (word : String) :
    Bool :=
  match word.toList with
  | '-' :: _ :: _ => true
  | _ => false

namespace Arguments

/-- Nothing said yet. -/
def none :
    Arguments :=
  ⟨[], []⟩

/-- An option has been given. -/
def has
    (arguments : Arguments)
    (name : String) :
    Bool :=
  (arguments.options.lookup name).isSome

/-- Take the value of an option, which must not have one yet. -/
def addOption?
    (arguments : Arguments)
    (name value : String) :
    Option Arguments :=
  if arguments.has name then Option.none
  else some { arguments with options := arguments.options ++ [(name, value)] }

/-- Take the value at the next place, if there is one that accepts it. -/
def addPlace?
    (form : CommandForm)
    (arguments : Arguments)
    (value : String) :
    Option Arguments :=
  match form.places[arguments.places.length]? with
  | some accepts =>
    if accepts value then some { arguments with places := arguments.places ++ [value] }
    else Option.none
  | Option.none => Option.none

/-- The arguments are complete if every place has its value. -/
def finish
    (form : CommandForm)
    (arguments : Arguments) :
    Reading Arguments :=
  if arguments.places.length = form.places.length then .accepted arguments else .misuse

/-- Take words that all are values at places. -/
def readPlaces
    (form : CommandForm) :
    Arguments → List String → Reading Arguments
  | arguments, [] => finish form arguments
  | arguments, word :: words =>
    match addPlace? form arguments word with
    | some arguments => readPlaces form arguments words
    | Option.none => .misuse

/-- Take the words of a command. -/
def read
    (form : CommandForm) :
    Arguments → List String → Reading Arguments
  | arguments, [] => finish form arguments
  | arguments, word :: words =>
    match classify false form.options word with
    | .separator => readPlaces form arguments words
    | .help => .help
    | .version => .version
    | .unknown => .misuse
    | .place =>
      match addPlace? form arguments word with
      | some arguments => read form arguments words
      | Option.none => .misuse
    | .flag option =>
      match arguments.addOption? option.name "" with
      | some arguments => read form arguments words
      | Option.none => .misuse
    | .withValue option accepts value =>
      if accepts value then
        match arguments.addOption? option.name value with
        | some arguments => read form arguments words
        | Option.none => .misuse
      else .misuse
    | .beforeValue option accepts =>
      match words with
      | [] => .misuse
      | value :: words =>
        if !startsLikeOption value && accepts value then
          match arguments.addOption? option.name value with
          | some arguments => read form arguments words
          | Option.none => .misuse
        else .misuse

/-- The front whose command's name follows a word that cannot be taken, if one does. -/
def unsoundFront
    (options : List OptionForm)
    (arguments : Arguments) :
    List String → Reading Front
  | [] => .misuse
  | name :: words =>
    match classify true options name with
    | .place => .accepted ⟨arguments, false, name, words⟩
    | _ => .misuse

/-- The words in front of a command: options alone, and then the command's name. -/
def readFront
    (options : List OptionForm) :
    Arguments → List String → Reading Front
  | _, [] => .misuse
  | arguments, word :: words =>
    match classify true options word with
    | .separator => .misuse
    | .help => .help
    | .version => .version
    | .unknown => .misuse
    | .place => .accepted ⟨arguments, true, word, words⟩
    | .flag option =>
      match arguments.addOption? option.name "" with
      | some arguments => readFront options arguments words
      | Option.none => .misuse
    | .withValue option accepts value =>
      if accepts value then
        match arguments.addOption? option.name value with
        | some arguments => readFront options arguments words
        | Option.none => .misuse
      else .misuse
    | .beforeValue option accepts =>
      match words with
      | [] => .misuse
      | value :: words =>
        if startsLikeOption value then .misuse
        else if accepts value then
          match arguments.addOption? option.name value with
          | some arguments => readFront options arguments words
          | Option.none => unsoundFront options arguments words
        else unsoundFront options arguments words

end Arguments

end NetRun.Program
