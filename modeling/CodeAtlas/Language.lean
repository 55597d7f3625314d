/-
This file lists the languages whose source files can be mapped, with what is fixed about
each: its names, the file extensions it is known by, and where its definitions carry their
documentation.
-/

import CodeAtlas.Path
import CodeAtlas.Text.LowerCase

namespace CodeAtlas

/-- A language whose source files can be mapped. -/
inductive Language where
  | python
  | rust
  | c
  | cpp
  | javaScript
  | typeScript
  | tsx
  | go
  | java
  | cSharp
  | ruby
  | php
  | bash
deriving DecidableEq, Repr

/-- Where a definition carries its documentation. -/
inductive DocStyle where
  /-- A string that is the first statement of the body. -/
  | bodyString
  /-- Comments directly above the definition. -/
  | leadingComment
deriving DecidableEq, Repr

namespace Language

/-- Every language. -/
def all : List Language :=
  [python, rust, c, cpp, javaScript, typeScript, tsx, go, java, cSharp, ruby, php, bash]

theorem mem_all (language : Language) : language ∈ all := by
  cases language <;> decide

/-- The short name of a language in reports. -/
def tag : Language → String
  | python => "python"
  | rust => "rust"
  | c => "c"
  | cpp => "cpp"
  | javaScript => "javascript"
  | typeScript => "typescript"
  | tsx => "tsx"
  | go => "go"
  | java => "java"
  | cSharp => "csharp"
  | ruby => "ruby"
  | php => "php"
  | bash => "bash"

/-- The name of a language for a reader. -/
def displayName : Language → String
  | python => "Python"
  | rust => "Rust"
  | c => "C"
  | cpp => "C++"
  | javaScript => "JavaScript"
  | typeScript => "TypeScript"
  | tsx => "TSX"
  | go => "Go"
  | java => "Java"
  | cSharp => "C#"
  | ruby => "Ruby"
  | php => "PHP"
  | bash => "Bash"

/-- The file extensions of a language. -/
def extensions : Language → List String
  | python => ["py", "pyi"]
  | rust => ["rs"]
  | c => ["c", "h"]
  | cpp => ["cpp", "cc", "cxx", "c++", "hpp", "hh", "hxx", "h++"]
  | javaScript => ["js", "jsx", "mjs", "cjs"]
  | typeScript => ["ts", "mts", "cts"]
  | tsx => ["tsx"]
  | go => ["go"]
  | java => ["java"]
  | cSharp => ["cs"]
  | ruby => ["rb"]
  | php => ["php"]
  | bash => ["sh", "bash"]

/-- The file extensions of every language, in the order of the languages. -/
def allExtensions : List String :=
  all.flatMap extensions

/-- Only one language documents a definition inside its body. -/
def docStyle : Language → DocStyle
  | python => .bodyString
  | _ => .leadingComment

/-- The language with a given tag. -/
def ofTag? (text : String) : Option Language :=
  all.find? fun language => language.tag = text

/-- The language that a file extension belongs to, whatever its case. -/
def ofExtension? (extension : String) : Option Language :=
  let lowered := String.ofList (Text.lower extension.toList)
  all.find? fun language => lowered ∈ language.extensions

/-- The language of a file, by the extension of its name. -/
def ofPath? (path : String) : Option Language :=
  (Path.extension? path).bind fun extension => ofExtension? (String.ofList extension)

theorem ofTag?_tag (language : Language) : ofTag? language.tag = some language := by
  cases language <;> decide

end Language

end CodeAtlas
