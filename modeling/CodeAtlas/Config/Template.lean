/-
This file holds the text of a fresh configuration file.
-/

namespace CodeAtlas.Config

/-- The lines of a fresh configuration file. -/
def templateLines : List String := [
  "# codemap configuration",
  "# All paths are relative to this .codemap/ directory unless absolute",
  "",
  "[project]",
  "root = \"..\"  # Parent directory (the actual project root)",
  "",
  "[analysis]",
  "include_private = false",
  "include_docstrings = true",
  "include_signatures = true",
  "granularity = \"detailed\"  # Options: \"file\", \"detailed\"",
  "# parallelism = 4  # Worker threads (default: available cores)",
  "",
  "[discovery]",
  "# Empty list = every file (unrecognized extensions are reported as unsupported)",
  "extensions = [\"py\", \"rs\", \"js\", \"jsx\", \"ts\", \"tsx\", \"go\", \"java\", \"c\", \"h\", \"cpp\", \"hpp\", \"cs\", \"rb\", \"php\"]",
  "ignore_patterns = [",
  "    \"__pycache__\", \"node_modules\", \".git\", \".svn\", \".hg\", \"venv\", \".venv\", \"env\", \".env\",",
  "    \"dist\", \"build\", \".idea\", \".vscode\", \"*.pyc\", \"*.pyo\", \"*.so\", \"*.dll\", \".tox\",",
  "    \".pytest_cache\", \".mypy_cache\", \"*.egg-info\", \"vendor\", \"target\", \"bin\", \"obj\",",
  "]",
  "respect_gitignore = true",
  "include_hidden = false",
  "max_file_size = 1048576  # Bytes",
  "max_depth = 10  # Directory levels below the project root",
  "",
  "[output]",
  "format = \"markdown\"  # Options: \"markdown\", \"json\"",
  "# path = \"codemap.md\"  # Default: stdout"]

/-- The text of a fresh configuration file. -/
def template : String :=
  String.join (templateLines.map (· ++ "\n"))

end CodeAtlas.Config
