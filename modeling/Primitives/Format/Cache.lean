import Primitives.Format.Template

/-!
# The template cache

Parsed templates are kept for reuse, up to 256 of them. A request for a kept template moves it to the
front, a request for a new one parses it and drops the template that was requested least recently
when there is no room, and a text that is not a template is not kept.

## Main definitions

* `TemplateCache`: the kept templates, the most recently requested first.
* `TemplateCache.find?`: a kept template.
* `TemplateCache.request`: the template of a text, and the cache afterwards.
-/

namespace Primitives

/-- Parsed templates, the most recently requested first. -/
structure TemplateCache where
  entries : List Template

namespace TemplateCache

/-- The greatest number of kept templates. -/
def capacity : Nat := 256

def empty : TemplateCache := ⟨[]⟩

/-- The kept template of a text. -/
def find? (cache : TemplateCache) (source : Text) : Option Template :=
  cache.entries.find? (·.source == source)

/-- Puts a template in front and keeps at most `capacity` in all. -/
def push (cache : TemplateCache) (t : Template) : TemplateCache :=
  ⟨(t :: cache.entries.filter (·.source != t.source)).take capacity⟩

/-- The template of a text, from the cache or parsed, and the cache afterwards. -/
def request (cache : TemplateCache) (source : Text) :
    Except TemplateFault Template × TemplateCache :=
  match cache.find? source with
  | some t => (.ok t, cache.push t)
  | none =>
    match Template.parse source with
    | .ok t => (.ok t, cache.push t)
    | .error fault => (.error fault, cache)

end TemplateCache

end Primitives
