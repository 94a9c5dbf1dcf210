/-!
# Templates of tests

The templates of tests, line by line. The marks ⟦ and ⟧ stand for braces.
-/

namespace Stencil.Bundled

/-- What is set up before tests. -/
def testSetup : List String :=
  ["import '@testing-library/jest-dom/vitest';",
   "import ⟦ afterEach ⟧ from 'vitest';",
   "import ⟦ cleanup ⟧ from '@testing-library/react';",
   "⟦⟦#if i18n⟧⟧import '../i18n/config';",
   "⟦⟦/if⟧⟧",
   "",
   "afterEach(() => ⟦",
   "  cleanup();",
   "⟧);",
   ""]

/-- What tests use. -/
def testHelpers : List String :=
  ["import type ⟦ ReactElement, ReactNode ⟧ from 'react';",
   "import ⟦ render, type RenderOptions ⟧ from '@testing-library/react';",
   "⟦⟦#if redux⟧⟧import ⟦ Provider ⟧ from 'react-redux';",
   "import ⟦ store ⟧ from '../store/store';",
   "⟦⟦/if⟧⟧⟦⟦#if reactRouter⟧⟧import ⟦ MemoryRouter ⟧ from 'react-router-dom';",
   "⟦⟦/if⟧⟧⟦⟦#if i18n⟧⟧import ⟦ I18nextProvider ⟧ from 'react-i18next';",
   "import i18n from '../i18n/config';",
   "⟦⟦/if⟧⟧",
   "",
   "function AllProviders(⟦ children ⟧: ⟦ children: ReactNode ⟧) ⟦",
   "⟦⟦#if hasProviders⟧⟧",
   "  return (",
   "⟦⟦#if i18n⟧⟧    <I18nextProvider i18n=⟦i18n⟧>",
   "⟦⟦/if⟧⟧⟦⟦#if redux⟧⟧      <Provider store=⟦store⟧>",
   "⟦⟦/if⟧⟧⟦⟦#if reactRouter⟧⟧        <MemoryRouter>",
   "⟦⟦/if⟧⟧          ⟦children⟧",
   "⟦⟦#if reactRouter⟧⟧        </MemoryRouter>",
   "⟦⟦/if⟧⟧⟦⟦#if redux⟧⟧      </Provider>",
   "⟦⟦/if⟧⟧⟦⟦#if i18n⟧⟧    </I18nextProvider>",
   "⟦⟦/if⟧⟧  );",
   "⟦⟦else⟧⟧",
   "  return <>⟦children⟧</>;",
   "⟦⟦/if⟧⟧",
   "⟧",
   "",
   "export function renderApp(ui: ReactElement, options?: RenderOptions) ⟦",
   "  return render(ui, ⟦ wrapper: AllProviders, ...options ⟧);",
   "⟧",
   "",
   "export * from '@testing-library/react';",
   ""]

/-- The settings of tests. -/
def testSettings : List String :=
  ["import ⟦ defineConfig ⟧ from 'vitest/config';",
   "import react from '@vitejs/plugin-react';",
   "",
   "export default defineConfig(⟦",
   "  plugins: [react()],",
   "  test: ⟦",
   "    globals: true,",
   "    environment: 'jsdom',",
   "    setupFiles: ['./src/test/setup.ts'],",
   "    coverage: ⟦",
   "      provider: 'v8',",
   "      thresholds: ⟦",
   "        lines: ⟦⟦coverageThreshold⟧⟧,",
   "        functions: ⟦⟦coverageThreshold⟧⟧,",
   "        branches: ⟦⟦coverageThreshold⟧⟧,",
   "        statements: ⟦⟦coverageThreshold⟧⟧,",
   "      ⟧,",
   "    ⟧,",
   "  ⟧,",
   "⟧);",
   ""]

/-- The test of the root component. -/
def appTest : List String :=
  ["import ⟦ describe, expect, it ⟧ from 'vitest';",
   "import ⟦ fireEvent, renderApp, screen ⟧ from '../test/test-utils';",
   "import App from '../App';",
   "",
   "describe('App', () => ⟦",
   "  it('renders the heading', () => ⟦",
   "    renderApp(<App />);",
   "    expect(screen.getByRole('heading', ⟦ level: 1 ⟧)).toBeInTheDocument();",
   "  ⟧);",
   "",
   "  it('increments the counter', () => ⟦",
   "    renderApp(<App />);",
   "    fireEvent.click(screen.getByText(/count is 0/));",
   "    expect(screen.getByText(/count is 1/)).toBeInTheDocument();",
   "  ⟧);",
   "⟧);",
   ""]

/-- The test of the store. -/
def storeTest : List String :=
  ["import ⟦ describe, expect, it ⟧ from 'vitest';",
   "import reducer, ⟦ setTheme, toggleTheme ⟧ from '../store/slices/appSlice';",
   "",
   "describe('appSlice', () => ⟦",
   "  it('starts in dark mode', () => ⟦",
   "    expect(reducer(undefined, ⟦ type: 'unknown' ⟧).theme).toBe('dark');",
   "  ⟧);",
   "",
   "  it('toggles the theme', () => ⟦",
   "    expect(reducer(⟦ theme: 'dark' ⟧, toggleTheme()).theme).toBe('light');",
   "  ⟧);",
   "",
   "  it('sets the theme', () => ⟦",
   "    expect(reducer(⟦ theme: 'dark' ⟧, setTheme('light')).theme).toBe('light');",
   "  ⟧);",
   "⟧);",
   ""]

/-- The test of routes. -/
def routerTest : List String :=
  ["import ⟦ describe, expect, it ⟧ from 'vitest';",
   "import ⟦ fireEvent, renderApp, screen ⟧ from '../test/test-utils';",
   "import App from '../App';",
   "",
   "describe('routing', () => ⟦",
   "  it('navigates to the about page', () => ⟦",
   "    renderApp(<App />);",
   "    fireEvent.click(screen.getByRole('link', ⟦ name: 'About' ⟧));",
   "    expect(screen.getAllByText('About').length).toBeGreaterThan(1);",
   "  ⟧);",
   "⟧);",
   ""]

/-- The test of the parts together. -/
def integrationTest : List String :=
  ["import ⟦ describe, expect, it ⟧ from 'vitest';",
   "import ⟦ fireEvent, renderApp, screen ⟧ from '../test/test-utils';",
   "import App from '../App';",
   "",
   "describe('App integration', () => ⟦",
   "⟦⟦#if redux⟧⟧",
   "  it('toggles the theme through the store', () => ⟦",
   "    renderApp(<App />);",
   "    fireEvent.click(screen.getByText(/theme: dark/));",
   "    expect(screen.getByText(/theme: light/)).toBeInTheDocument();",
   "  ⟧);",
   "⟦⟦/if⟧⟧",
   "⟦⟦#if reactRouter⟧⟧",
   "  it('keeps the counter while navigating', () => ⟦",
   "    renderApp(<App />);",
   "    fireEvent.click(screen.getByText(/count is 0/));",
   "    fireEvent.click(screen.getByRole('link', ⟦ name: 'About' ⟧));",
   "    expect(screen.getByText(/count is 1/)).toBeInTheDocument();",
   "  ⟧);",
   "⟦⟦/if⟧⟧",
   "⟧);",
   ""]

/-- The test of accessibility. -/
def accessibilityTest : List String :=
  ["import ⟦ describe, expect, it ⟧ from 'vitest';",
   "import ⟦ renderApp, screen ⟧ from '../test/test-utils';",
   "import App from '../App';",
   "",
   "describe('accessibility', () => ⟦",
   "  it('exposes a single top-level heading', () => ⟦",
   "    renderApp(<App />);",
   "    expect(screen.getAllByRole('heading', ⟦ level: 1 ⟧)).toHaveLength(1);",
   "  ⟧);",
   "",
   "  it('labels every button', () => ⟦",
   "    renderApp(<App />);",
   "    for (const button of screen.getAllByRole('button')) ⟦",
   "      expect(button).toHaveAccessibleName();",
   "    ⟧",
   "  ⟧);",
   "⟧);",
   ""]

/-- The test of performance. -/
def performanceTest : List String :=
  ["import ⟦ describe, expect, it ⟧ from 'vitest';",
   "import ⟦ renderApp ⟧ from '../test/test-utils';",
   "import App from '../App';",
   "",
   "describe('performance', () => ⟦",
   "  it('renders within budget', () => ⟦",
   "    const start = performance.now();",
   "    renderApp(<App />);",
   "    expect(performance.now() - start).toBeLessThan(200);",
   "  ⟧);",
   "⟧);",
   ""]

/-- The test of styles. -/
def tailwindTest : List String :=
  ["import ⟦ describe, expect, it ⟧ from 'vitest';",
   "import ⟦ renderApp, screen ⟧ from '../test/test-utils';",
   "import App from '../App';",
   "",
   "describe('tailwind classes', () => ⟦",
   "  it('styles the heading', () => ⟦",
   "    renderApp(<App />);",
   "    expect(screen.getByRole('heading', ⟦ level: 1 ⟧)).toHaveClass('text-4xl');",
   "  ⟧);",
   "⟧);",
   ""]

/-- The test of translation. -/
def translationTest : List String :=
  ["import ⟦ describe, expect, it ⟧ from 'vitest';",
   "import i18n from '../i18n/config';",
   "",
   "describe('i18n', () => ⟦",
   "  it.each(['en', 'pt', 'es'])('has a subtitle for %s', async (lng) => ⟦",
   "    await i18n.changeLanguage(lng);",
   "    expect(i18n.t('hero.subtitle')).not.toBe('hero.subtitle');",
   "  ⟧);",
   "⟧);",
   ""]

/-- The templates of tests with their names. -/
def testFiles : List (String × List String) :=
  [("setup.ts.hbs", testSetup),
   ("test-utils.tsx.hbs", testHelpers),
   ("vitest.config.ts.hbs", testSettings),
   ("App.test.tsx.hbs", appTest),
   ("store.test.ts.hbs", storeTest),
   ("router.test.tsx.hbs", routerTest),
   ("integration.test.tsx.hbs", integrationTest),
   ("a11y.test.tsx.hbs", accessibilityTest),
   ("performance.test.tsx.hbs", performanceTest),
   ("tailwind.test.tsx.hbs", tailwindTest),
   ("i18n.test.tsx.hbs", translationTest)]

end Stencil.Bundled
